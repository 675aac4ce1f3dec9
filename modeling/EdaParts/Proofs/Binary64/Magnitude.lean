import EdaParts.Binary64
import Mathlib

/-!
# How large doubles get

A calculation with doubles has a finite result as long as none of its steps is too large. A double below
a power of two has a value, and its size is less than that power; one rounding takes a result at
most to the next power.

* `Below` : the double is finite and smaller in size than a power of two; `AtLeast` : it is no smaller;
* `below_pack` : what is below the range of doubles is stored as it is, or smaller;
* `below_roundWithAccuracy`, `below_normalize` : rounding goes one power up;
* `Below.add`, `Below.sub`, `Below.mul`, `Below.div`, `below_ofNat`, `Below.rounded` : the calculations;
* `isFinite_iff_below` : the finite doubles are those below `2 ^ 1024`.
-/

namespace EdaParts.Binary64

open Float.Model Float.Model.UnpackedFloat

instance decidableEqSign : DecidableEq Sign
  | .positive, .positive => isTrue rfl
  | .positive, .negative => isFalse nofun
  | .negative, .positive => isFalse nofun
  | .negative, .negative => isTrue rfl

/-! ## Sizes -/

/-- The size is less than `2 ^ k`. The unit in the last place stays 53 powers below it, as in all doubles
that are stored. -/
def SizeBelow (k : Nat) : UnpackedFloat → Prop
  | .zero _ => True
  | .finite _ m e _ => totalExponent m e ≤ k ∧ e + 53 ≤ k
  | .notANumber | .infinity _ => False

/-- The double is finite, and its size is less than `2 ^ k`. -/
def Below (k : Nat) (x : Float) : Prop := SizeBelow k x.toModel.unpack

/-- The size is at least `2 ^ (k - 1)`. -/
def SizeAtLeast (k : Nat) : UnpackedFloat → Prop
  | .finite _ m e _ => k ≤ totalExponent m e
  | _ => False

/-- The double is finite, and its size is at least `2 ^ (k - 1)`. -/
def AtLeast (k : Nat) (x : Float) : Prop := SizeAtLeast k x.toModel.unpack

instance (k : Nat) (u : UnpackedFloat) : Decidable (SizeBelow k u) :=
  match u with
  | .zero _ => isTrue trivial
  | .finite _ m e _ => inferInstanceAs (Decidable (totalExponent m e ≤ k ∧ e + 53 ≤ k))
  | .notANumber | .infinity _ => isFalse id

instance (k : Nat) (x : Float) : Decidable (Below k x) :=
  inferInstanceAs (Decidable (SizeBelow _ _))

instance (k : Nat) (u : UnpackedFloat) : Decidable (SizeAtLeast k u) :=
  match u with
  | .finite _ m e _ => inferInstanceAs (Decidable (k ≤ totalExponent m e))
  | .zero _ | .notANumber | .infinity _ => isFalse id

instance (k : Nat) (x : Float) : Decidable (AtLeast k x) :=
  inferInstanceAs (Decidable (SizeAtLeast _ _))

theorem SizeBelow.mono {k l : Nat} {u : UnpackedFloat} (h : SizeBelow k u) (hkl : k ≤ l) : SizeBelow l u := by
  cases u with
  | zero => trivial
  | finite s m e hm => exact ⟨by have := h.1; omega, by have := h.2; omega⟩
  | _ => cases h

theorem Below.mono {k l : Nat} {x : Float} (h : Below k x) (hkl : k ≤ l) : Below l x :=
  SizeBelow.mono h hkl

/-! ## Exponents of mantissas -/

section
variable {m n k j : Nat} {e f t : Int}

theorem totalExponent_le (hm : m < 2 ^ n) (hn : 0 < n) : totalExponent m e ≤ n + e := by
  have hlog : m.log2 < n := by
    by_cases hzero : m = 0
    · rw [hzero, Nat.log2_zero]
      exact hn
    · exact (Nat.log2_lt hzero).mpr hm
  rw [totalExponent]
  omega

theorem targetExponent_eq (t : Int) : Format.binary64.targetExponent t = max (t - 53) (-1074) := rfl

theorem log2_div_two_pow (h : m / 2 ^ j ≠ 0) : (m / 2 ^ j).log2 + j ≤ m.log2 := by
  have hpos : 0 < 2 ^ j := Nat.two_pow_pos j
  have hm : m ≠ 0 := by
    rintro rfl
    exact h (Nat.zero_div _)
  have hlow := Nat.log2_self_le h
  apply (Nat.le_log2 hm).mpr
  calc 2 ^ ((m / 2 ^ j).log2 + j) = 2 ^ (m / 2 ^ j).log2 * 2 ^ j := Nat.pow_add ..
    _ ≤ m / 2 ^ j * 2 ^ j := Nat.mul_le_mul_right _ hlow
    _ ≤ m := Nat.div_mul_le_self m _

/-! ## Rounding -/

/-- Shifting right cuts off bits. -/
theorem mantissa_shiftRight (em : ExtendedMantissa) (j : Nat) :
    (em >>> j).mantissa = em.mantissa / 2 ^ j := by
  induction j generalizing em with
  | zero => exact (Nat.div_one _).symm
  | succ j ih =>
    show (em >>> j).mantissa / 2 = _
    rw [ih, Nat.div_div_eq_div_mul, Nat.pow_succ]

theorem mantissa_ofMantissaAndAccuracy (m : Nat) (a : Accuracy) :
    (ExtendedMantissa.ofMantissaAndAccuracy m a).mantissa = m := by
  rcases a with _ | (_ | _ | _) <;> rfl

theorem roundedMantissa_le (em : ExtendedMantissa) : em.roundedMantissa ≤ em.mantissa + 1 := by
  rcases em with ⟨m, r, s⟩
  cases r <;> cases s <;> simp only [ExtendedMantissa.roundedMantissa, ExtendedMantissa.accuracy,
    Accuracy.roundToNearestEven] <;> omega

/-- The places by which a mantissa is shifted to have no more than 53 bits. -/
def shiftOf (m : Nat) (e : Int) : Nat :=
  (max (totalExponent m e - 53) (-1074) - e).toNat

theorem shiftToTargetExponent_eq (m : Nat) (e : Int) (a : Accuracy) :
    shiftToTargetExponent Format.binary64 m e a =
      (ExtendedMantissa.ofMantissaAndAccuracy m a >>> shiftOf m e, e + shiftOf m e) := rfl

/-- The first rounding takes the mantissa to the next power of two at most. -/
theorem totalExponent_roundedMantissa_le (a : Accuracy) (hm : totalExponent m e ≤ k) (he : e + 53 ≤ k) :
    totalExponent (ExtendedMantissa.ofMantissaAndAccuracy m a >>> shiftOf m e).roundedMantissa
      (e + shiftOf m e) ≤ k + 1 := by
  have hrounded := roundedMantissa_le (ExtendedMantissa.ofMantissaAndAccuracy m a >>> shiftOf m e)
  rw [mantissa_shiftRight, mantissa_ofMantissaAndAccuracy] at hrounded
  have hshift : e + shiftOf m e + 53 ≤ k := by
    rw [shiftOf]
    omega
  have htotal : totalExponent m e = m.log2 + 1 + e := rfl
  by_cases hlarge : shiftOf m e ≤ m.log2
  · -- What is left has at least one bit, and rounding it up makes it one longer at most.
    obtain ⟨n, hn⟩ := Nat.exists_eq_add_of_le hlarge
    have hquotient : m / 2 ^ shiftOf m e < 2 ^ (n + 1) := by
      apply (Nat.div_lt_iff_lt_mul (Nat.two_pow_pos _)).mpr
      rw [← Nat.pow_add, show n + 1 + shiftOf m e = m.log2 + 1 by omega]
      exact Nat.lt_log2_self
    have hlt : (ExtendedMantissa.ofMantissaAndAccuracy m a >>> shiftOf m e).roundedMantissa < 2 ^ (n + 2) := by
      rw [show n + 2 = n + 1 + 1 from rfl, Nat.pow_succ]
      have := Nat.two_pow_pos (n + 1)
      omega
    have hle := totalExponent_le (e := e + shiftOf m e) hlt (by omega)
    omega
  · have hquotient : m / 2 ^ shiftOf m e = 0 := by
      apply Nat.div_eq_of_lt
      calc m < 2 ^ (m.log2 + 1) := Nat.lt_log2_self
        _ ≤ 2 ^ shiftOf m e := Nat.pow_le_pow_right (by decide) (by omega)
    have hlt : (ExtendedMantissa.ofMantissaAndAccuracy m a >>> shiftOf m e).roundedMantissa < 2 ^ 1 := by
      omega
    have hle := totalExponent_le (e := e + shiftOf m e) hlt (by omega)
    omega

/-- **Rounding** a size goes to the next power of two at most. -/
theorem below_roundWithAccuracy (s : Sign) (a : Accuracy) (hm : totalExponent m e ≤ k) (he : e + 53 ≤ k) :
    SizeBelow (k + 1) (roundWithAccuracy Format.binary64 s m e a) := by
  have hfirst := totalExponent_roundedMantissa_le a hm he
  have hshift : e + shiftOf m e + 53 ≤ k := by
    rw [shiftOf]
    omega
  rw [roundWithAccuracy, shiftToTargetExponent_eq]
  dsimp only
  rw [shiftToTargetExponent_eq]
  dsimp only
  generalize (ExtendedMantissa.ofMantissaAndAccuracy m a >>> shiftOf m e).roundedMantissa = r at *
  generalize e + (shiftOf m e : Int) = f at *
  rw [mantissa_shiftRight, mantissa_ofMantissaAndAccuracy]
  split
  · trivial
  · next hne =>
    have hlog := log2_div_two_pow hne
    have htotal : totalExponent r f = r.log2 + 1 + f := rfl
    refine ⟨?_, ?_⟩
    · show ((r / 2 ^ shiftOf r f).log2 : Int) + 1 + (f + shiftOf r f) ≤ _
      omega
    · show f + (shiftOf r f : Int) + 53 ≤ _
      rw [shiftOf] at *
      omega

theorem totalExponent_shiftLeft_le (m j : Nat) (e : Int) :
    totalExponent (m <<< j) (e - j) ≤ totalExponent m e := by
  have hlt : m <<< j < 2 ^ (m.log2 + 1 + j) := by
    rw [Nat.shiftLeft_eq, Nat.pow_add]
    exact Nat.mul_lt_mul_of_pos_right Nat.lt_log2_self (Nat.two_pow_pos j)
  have hle := totalExponent_le (e := e - j) hlt (by omega)
  rw [totalExponent] at hle ⊢
  rw [totalExponent]
  omega

theorem below_round (s : Sign) (hm : totalExponent m e ≤ k) :
    SizeBelow (k + 1) (round Format.binary64 s m e) := by
  apply below_roundWithAccuracy
  · exact (totalExponent_shiftLeft_le m _ e).trans hm
  · rw [targetExponent_eq]
    omega

theorem below_normalize {n : Int} (z : Sign) (hn : n.natAbs < 2 ^ j) (hj : j + e ≤ k) :
    SizeBelow (k + 1) (normalize Format.binary64 n e z) := by
  have hsize (hne : n ≠ 0) : totalExponent n.natAbs e ≤ k := by
    have hpos : 0 < j := by
      rcases Nat.eq_zero_or_pos j with rfl | hpos
      · rw [Nat.pow_zero] at hn
        omega
      · exact hpos
    have hle := totalExponent_le (e := e) hn hpos
    omega
  unfold UnpackedFloat.normalize
  split
  · next hlt =>
    rw [Int.compare_eq_lt] at hlt
    rw [show (-n).toNat = n.natAbs by omega]
    exact below_round _ (hsize (by omega))
  · trivial
  · next hgt =>
    rw [Int.compare_eq_gt] at hgt
    rw [show n.toNat = n.natAbs by omega]
    exact below_round _ (hsize (by omega))

end

/-! ## Storing -/

section
variable {k : Nat} {u : UnpackedFloat} {x : Float}

theorem toNat_append_one (v : BitVec 52) : (1#1 ++ v).toNat = 2 ^ 52 + v.toNat := by
  rw [BitVec.toNat_append, ← Nat.shiftLeft_add_eq_or_of_lt v.isLt]
  rfl

/-- A mantissa with its leading bit has 53 bits. -/
theorem log2_append_one (v : BitVec 52) : (1#1 ++ v).toNat.log2 = 52 := by
  have hlt := v.isLt
  rw [toNat_append_one, Nat.log2_eq_iff (by omega)]
  constructor <;> omega

theorem log2_toNat_le (v : BitVec 52) : v.toNat.log2 ≤ 51 := by
  by_cases hzero : v.toNat = 0
  · rw [hzero]
    decide
  · have hlt := (Nat.log2_lt hzero).mpr v.isLt
    omega

/-- Of a stored double the size is told by its exponent. -/
theorem sizeBelow_unpack {b : BitVec 64}
    (he : (@unpackExponent Format.binary64 b).toNat ≤ k + 1022)
    (hfinite : @unpackExponent Format.binary64 b ≠ -1#11) :
    SizeBelow k (UnpackedFloat.unpack Format.binary64 b) := by
  unfold UnpackedFloat.unpack
  dsimp only
  rw [if_neg hfinite]
  split
  · next hzero =>
    split
    · trivial
    · have hlog := log2_toNat_le (@unpackMantissa Format.binary64 b)
      rw [hzero]
      refine ⟨?_, ?_⟩
      · show (_ : Int) + 1 + (0 - 1075 + 1) ≤ k
        omega
      · show (0 : Int) - 1075 + 1 + 53 ≤ k
        omega
  · have hlog := log2_append_one (@unpackMantissa Format.binary64 b)
    refine ⟨?_, ?_⟩
    · show ((1#1 ++ @unpackMantissa Format.binary64 b).toNat.log2 : Int) + 1 + (_ - 1075) ≤ k
      rw [hlog]
      omega
    · show (_ : Int) - 1075 + 53 ≤ k
      omega

/-- What is below the range of doubles is stored without getting larger. -/
theorem below_pack (h : SizeBelow k u) (hk : k ≤ 1024) : SizeBelow k (Float.Model.pack u).unpack := by
  -- Exponents of no more than `k + 1022` are not the one that infinities have.
  have hstored (s : Sign) {e : Nat} (v : BitVec 52) (he : e ≤ k + 1022) (hlt : e < 2047) :
      SizeBelow k (UnpackedFloat.unpack Format.binary64
        (packComponents Format.binary64 s (BitVec.ofNat 11 e) v)) := by
    have htoNat : (BitVec.ofNat 11 e).toNat = e := by
      rw [BitVec.toNat_ofNat]
      omega
    apply sizeBelow_unpack
    · rw [unpackExponent_packComponents]
      exact htoNat.trans_le he
    · rw [unpackExponent_packComponents]
      intro heq
      have hnat : (BitVec.ofNat 11 e).toNat = 2047 := congrArg BitVec.toNat heq
      omega
  show SizeBelow k (UnpackedFloat.unpack Format.binary64 (UnpackedFloat.pack Format.binary64 u))
  cases u with
  | zero s => exact hstored s 0 (Nat.zero_le _) (by decide)
  | finite s m e hm =>
    obtain ⟨htotal, he⟩ := h
    unfold UnpackedFloat.pack
    dsimp only
    rw [if_neg]
    · split
      · exact hstored s _ (show (e + 1023 + 52).toNat ≤ _ by omega) (show (e + 1023 + 52).toNat < _ by omega)
      · exact hstored s _ (Nat.zero_le _) (by decide)
    · show ¬ 2048 ≤ (e + 1023 + 52).toNat + 1
      omega
  | _ => cases h

theorem Below.isFinite (h : Below k x) : x.isFinite = true := by
  show x.toModel.unpack.isFinite = true
  rw [Below] at h
  cases hx : x.toModel.unpack with
  | zero => rfl
  | finite => rfl
  | _ =>
    rw [hx] at h
    cases h

/-- The bits of the exponent of a double. -/
def exponentBits (x : Float) : BitVec 11 :=
  @unpackExponent Format.binary64 x.toModel.toBits.toBitVec

/-- The last exponent is that of what is no number and of the infinities. -/
theorem isFinite_iff_exponentBits : x.isFinite = true ↔ exponentBits x ≠ -1#11 := by
  have hunpack : x.isFinite = (UnpackedFloat.unpack Format.binary64 x.toModel.toBits.toBitVec).isFinite := rfl
  rw [hunpack, UnpackedFloat.unpack]
  unfold exponentBits
  dsimp only
  by_cases hlast : @unpackExponent Format.binary64 x.toModel.toBits.toBitVec = -1#11
  · rw [if_pos hlast]
    split <;> exact iff_of_false Bool.false_ne_true (not_not_intro hlast)
  · rw [if_neg hlast]
    split
    · split <;> exact iff_of_true rfl hlast
    · exact iff_of_true rfl hlast

theorem exponentBits_ne_iff : exponentBits x ≠ -1#11 ↔ (exponentBits x).toNat ≠ 2047 :=
  not_congr BitVec.toNat_inj.symm

/-- **The finite doubles** are those below `2 ^ 1024`. -/
theorem isFinite_iff_below : x.isFinite = true ↔ Below 1024 x := by
  refine ⟨fun h => ?_, Below.isFinite⟩
  have hne := isFinite_iff_exponentBits.mp h
  have hlast := exponentBits_ne_iff.mp hne
  have hlt := (exponentBits x).isLt
  exact sizeBelow_unpack (show (exponentBits x).toNat ≤ 1024 + 1022 by omega) hne

/-- What a stored double is made of. -/
def partsOf : UnpackedFloat → Parts
  | .notANumber => .nan
  | .infinity s => .infinite (s = .negative)
  | .zero s => .finite (s = .negative) 0 (-1074)
  | .finite s m e _ => .finite (s = .negative) m e

theorem toNat_unpackExponent (b : BitVec 64) :
    (@unpackExponent Format.binary64 b).toNat = b.toNat / Nat.pow 2 52 % Nat.pow 2 11 := by
  show (BitVec.extractLsb 62 52 b).toNat = _
  rw [BitVec.extractLsb_toNat, Nat.shiftRight_eq_div_pow]

theorem toNat_unpackMantissa (b : BitVec 64) :
    (@unpackMantissa Format.binary64 b).toNat = b.toNat % Nat.pow 2 52 := by
  show (BitVec.extractLsb 51 0 b).toNat = _
  rw [BitVec.extractLsb_toNat, Nat.shiftRight_zero]

theorem negative_unpackSign (b : BitVec 64) :
    decide (Sign.ofBitVec (@unpackSign Format.binary64 b) = .negative) = (b.toNat / Nat.pow 2 63 == 1) := by
  have hbit : (@unpackSign Format.binary64 b).toNat = b.toNat / Nat.pow 2 63 := by
    show (BitVec.extractLsb 63 63 b).toNat = _
    rw [BitVec.extractLsb_toNat, Nat.shiftRight_eq_div_pow]
    exact Nat.mod_eq_of_lt (Nat.div_lt_of_lt_mul b.isLt)
  rw [← hbit, Sign.ofBitVec]
  rcases BitVec.eq_zero_or_eq_one (@unpackSign Format.binary64 b) with hzero | hone
  · rw [hzero]
    rfl
  · rw [hone]
    rfl

/-- **The parts of a double** are those that it is unpacked into. -/
theorem parts_eq (x : Float) : parts x = partsOf x.toModel.unpack := by
  have hunpack : x.toModel.unpack = UnpackedFloat.unpack Format.binary64 x.toBits.toBitVec := rfl
  have hlast : @unpackExponent Format.binary64 x.toBits.toBitVec = -1#11 ↔
      (@unpackExponent Format.binary64 x.toBits.toBitVec).toNat = 2047 := BitVec.toNat_inj.symm
  have hfirst : @unpackExponent Format.binary64 x.toBits.toBitVec = 0#11 ↔
      (@unpackExponent Format.binary64 x.toBits.toBitVec).toNat = 0 := BitVec.toNat_inj.symm
  have hzero : @unpackMantissa Format.binary64 x.toBits.toBitVec = 0#52 ↔
      (@unpackMantissa Format.binary64 x.toBits.toBitVec).toNat = 0 := BitVec.toNat_inj.symm
  rw [hunpack, UnpackedFloat.unpack, parts, ← UInt64.toNat_toBitVec, ← toNat_unpackExponent,
    ← toNat_unpackMantissa, ← negative_unpackSign]
  simp only [hlast, hfirst]
  split
  · simp only [hzero]
    split <;> rfl
  · split
    · next hsmall =>
      split
      · next hm =>
        rw [hzero.mp hm]
        rfl
      · rw [partsOf, hsmall]
        rfl
    · rw [partsOf]
      congr 1
      exact (toNat_append_one _).symm

/-- Of a finite double sign, mantissa and exponent are read. -/
theorem isFinite_iff_parts : x.isFinite = true ↔ ∃ negative m e, parts x = .finite negative m e := by
  have hunpack : x.isFinite = x.toModel.unpack.isFinite := rfl
  rw [hunpack, parts_eq]
  cases x.toModel.unpack <;> simp [partsOf, UnpackedFloat.isFinite]

end

/-! ## Calculations -/

section
variable {a b c k : Nat} {x y : Float} {u v : UnpackedFloat}

theorem SizeBelow.neg (h : SizeBelow k u) : SizeBelow k u.neg := by
  cases u <;> exact h

theorem SizeBelow.abs (h : SizeBelow k u) : SizeBelow k u.abs := by
  cases u <;> exact h

theorem Below.neg (h : Below k x) (hk : k ≤ 1024) : Below k (-x) :=
  below_pack (SizeBelow.neg h) hk

theorem Below.abs (h : Below k x) (hk : k ≤ 1024) : Below k x.abs :=
  below_pack (SizeBelow.abs h) hk

/-- A sum or difference of mantissas on the smaller of two exponents. -/
theorem natAbs_apply_lt {m : Nat} {e f : Int} (s : Sign) (h : totalExponent m e ≤ k) (hf : f ≤ e)
    (hk : f ≤ k) : (s.apply (m <<< (e - f).toNat : Nat)).natAbs < 2 ^ (k - f).toNat := by
  have hnat : (s.apply (m <<< (e - f).toNat : Nat)).natAbs = m <<< (e - f).toNat := by
    cases s
    · exact Int.natAbs_neg _
    · rfl
  rw [hnat, Nat.shiftLeft_eq]
  rw [totalExponent] at h
  calc m * 2 ^ (e - f).toNat < 2 ^ (m.log2 + 1) * 2 ^ (e - f).toNat :=
        Nat.mul_lt_mul_of_pos_right Nat.lt_log2_self (Nat.two_pow_pos _)
    _ = 2 ^ (m.log2 + 1 + (e - f).toNat) := (Nat.pow_add ..).symm
    _ ≤ 2 ^ (k - f).toNat := Nat.pow_le_pow_right (by decide) (by omega)

theorem SizeBelow.add (hu : SizeBelow k u) (hv : SizeBelow k v) :
    SizeBelow (k + 2) (UnpackedFloat.add Format.binary64 u v) := by
  cases u with
  | zero s =>
    cases v with
    | zero t =>
      unfold UnpackedFloat.add
      dsimp only
      split <;> trivial
    | finite t n f hn => exact SizeBelow.mono hv (by omega)
    | _ => cases hv
  | finite s m e hm =>
    cases v with
    | zero t => exact SizeBelow.mono hu (by omega)
    | finite t n f hn =>
      obtain ⟨hm, he⟩ := hu
      obtain ⟨hn, hf⟩ := hv
      have hleft := natAbs_apply_lt s hm (Int.min_le_left e f) (by omega)
      have hright := natAbs_apply_lt t hn (Int.min_le_right e f) (by omega)
      apply below_normalize (j := (k - min e f).toNat + 1)
      · rw [Nat.pow_succ]
        have hadd := Int.natAbs_add_le (s.apply (m <<< (e - min e f).toNat : Nat))
          (t.apply (n <<< (f - min e f).toNat : Nat))
        show (s.apply (m <<< (e - min e f).toNat : Nat) + t.apply (n <<< (f - min e f).toNat : Nat)).natAbs < _
        omega
      · omega
    | _ => cases hv
  | _ => cases hu

theorem sub_eq_add_neg (u v : UnpackedFloat) :
    UnpackedFloat.sub Format.binary64 u v = UnpackedFloat.add Format.binary64 u v.neg := by
  have hneg (t : Sign) (n : Nat) : (-t).apply n = -t.apply n := by
    cases t
    · exact (Int.neg_neg _).symm
    · rfl
  cases u <;> cases v <;> try rfl
  · next s m e hm t n f hn =>
    show normalize Format.binary64 (s.apply _ - t.apply _) _ _ =
      normalize Format.binary64 (s.apply _ + (-t).apply _) _ _
    rw [hneg, Int.sub_eq_add_neg]

theorem Below.add (hx : Below k x) (hy : Below k y) (hk : k + 2 ≤ c) (hc : c ≤ 1024) : Below c (x + y) :=
  below_pack (SizeBelow.mono (SizeBelow.add hx hy) hk) hc

theorem Below.sub (hx : Below k x) (hy : Below k y) (hk : k + 2 ≤ c) (hc : c ≤ 1024) : Below c (x - y) := by
  have hsize := SizeBelow.add hx (SizeBelow.neg hy)
  rw [← sub_eq_add_neg] at hsize
  exact below_pack (SizeBelow.mono hsize hk) hc

theorem mul_finite {s t : Sign} {m n : Nat} {e f : Int} (hm : 0 < m) (hn : 0 < n) :
    UnpackedFloat.mul Format.binary64 (.finite s m e hm) (.finite t n f hn) =
      roundWithAccuracy Format.binary64 (s * t) (m * n) (e + f) .exact := rfl

theorem SizeBelow.mul (hu : SizeBelow a u) (hv : SizeBelow b v) :
    SizeBelow (a + b + 1) (UnpackedFloat.mul Format.binary64 u v) := by
  cases u with
  | zero s => cases v <;> trivial
  | finite s m e hm =>
    cases v with
    | zero t => trivial
    | finite t n f hn =>
      obtain ⟨hm, he⟩ := hu
      obtain ⟨hn, hf⟩ := hv
      rw [totalExponent] at hm hn
      have hproduct : m * n < 2 ^ (m.log2 + 1 + (n.log2 + 1)) := by
        rw [Nat.pow_add]
        exact Nat.mul_lt_mul'' Nat.lt_log2_self Nat.lt_log2_self
      have htotal := totalExponent_le (e := e + f) hproduct (by omega)
      rw [mul_finite]
      exact below_roundWithAccuracy _ _ (by omega) (by omega)
    | _ => cases hv
  | _ => cases hu

theorem Below.mul (hx : Below a x) (hy : Below b y) (hab : a + b + 1 ≤ c) (hc : c ≤ 1024) : Below c (x * y) :=
  below_pack (SizeBelow.mono (SizeBelow.mul hx hy) hab) hc

theorem SizeBelow.div (hu : SizeBelow a u) (hv : SizeAtLeast b v) (hab : a + 1 ≤ c + b) :
    SizeBelow (c + 1) (UnpackedFloat.div Format.binary64 u v) := by
  cases v with
  | finite t n f hn =>
    cases u with
    | zero s => trivial
    | finite s m e hm' =>
      obtain ⟨hm, he⟩ := hu
      have hn' : b ≤ totalExponent n f := hv
      unfold UnpackedFloat.div divCore
      dsimp only
      rw [targetExponent_eq]
      generalize ht : min (e - f) (max (totalExponent m e - totalExponent n f - 53) (-1074)) = t
      rw [totalExponent] at hm hn' ht
      rw [totalExponent] at ht
      -- The quotient has no more bits than the exponents say, or none at all.
      have hquotient : m <<< (e - f - t).toNat / n < 2 ^ ((c : Int) - t).toNat := by
        apply (Nat.div_lt_iff_lt_mul hn).mpr
        rw [Nat.shiftLeft_eq]
        calc m * 2 ^ (e - f - t).toNat < 2 ^ (m.log2 + 1) * 2 ^ (e - f - t).toNat :=
              Nat.mul_lt_mul_of_pos_right Nat.lt_log2_self (Nat.two_pow_pos _)
          _ = 2 ^ (m.log2 + 1 + (e - f - t).toNat) := (Nat.pow_add ..).symm
          _ ≤ 2 ^ (((c : Int) - t).toNat + n.log2) := Nat.pow_le_pow_right (by decide) (by omega)
          _ = 2 ^ ((c : Int) - t).toNat * 2 ^ n.log2 := Nat.pow_add ..
          _ ≤ 2 ^ ((c : Int) - t).toNat * n := Nat.mul_le_mul_left _ (Nat.log2_self_le (by omega))
      have htotal := totalExponent_le (e := t) hquotient (by omega)
      exact below_roundWithAccuracy _ _ (by omega) (by omega)
    | _ => cases hu
  | _ => cases hv

theorem Below.div (hx : Below a x) (hy : AtLeast b y) (hab : a + 2 ≤ c + b) (hc : 0 < c) (hc' : c ≤ 1024) :
    Below c (x / y) := by
  obtain ⟨d, rfl⟩ := Nat.exists_eq_add_of_le' hc
  exact below_pack (SizeBelow.div hx hy (by omega)) hc'

/-! ## Whole numbers -/

/-- The double of a word. -/
theorem below_toFloat {n : UInt64} (hn : n.toNat < 2 ^ a) (ha : a + 1 ≤ 1024) : Below (a + 1) n.toFloat := by
  have hsize : SizeBelow (a + 1) (normalize Format.binary64 n.toNat 0 .positive) :=
    below_normalize _ hn (by omega)
  exact below_pack hsize ha

theorem below_ofNat {n : Nat} (hn : n < 2 ^ a) (ha : a + 3 ≤ c) (hc : c ≤ 1024) : Below c (Float.ofNat n) := by
  show Below c (Float.ofScientific n false 0)
  unfold Float.ofScientific
  split
  · next hsmall =>
    -- A number of up to 53 bits is a word, and is multiplied by one.
    have hword : n.toUInt64.toNat = n :=
      UInt64.toNat_ofNat_of_lt' (hsmall.1.trans (by decide))
    have hone : Below 1 (Float.ofBits 0x3FF0000000000000) := by decide
    exact Below.mul (below_toFloat (hword.symm ▸ hn) (by omega)) hone (by omega) hc
  · show Below c (Float.ofModel (.pack (UnpackedFloat.ofScientific Format.binary64 n 0)))
    apply below_pack (SizeBelow.mono _ (show a + 1 ≤ c by omega)) hc
    have hlarge : ¬ (0 : Int) < -((2 ^ Format.binary64.exponentBits : Int) + n.log2) := by
      show ¬ (0 : Int) < -((2 ^ 11 : Int) + n.log2)
      omega
    have hbits : Format.binary64.mantissaBits = 53 := rfl
    unfold UnpackedFloat.ofScientific
    by_cases hzero : n = 0
    · rw [dif_pos hzero]
      trivial
    · rw [dif_neg hzero, if_neg (by decide), if_neg hlarge, if_pos (Int.le_refl 0), mul_finite, hbits,
        Int.toNat_zero, Nat.pow_zero, Nat.mul_one, Nat.shiftLeft_eq]
      have hshifted : n * 2 ^ 53 < 2 ^ (a + 53) := by
        rw [Nat.pow_add]
        exact Nat.mul_lt_mul_of_pos_right hn (Nat.two_pow_pos 53)
      have htotal := totalExponent_le (e := -(53 : Nat) + 0) hshifted (by omega)
      exact below_roundWithAccuracy _ _ (htotal.trans (by omega)) (by omega)

theorem below_ofInt {n : Int} (hn : n.natAbs < 2 ^ a) (ha : a + 3 ≤ c) (hc : c ≤ 1024) :
    Below c (Float.ofInt n) := by
  cases n with
  | ofNat n => exact below_ofNat hn ha hc
  | negSucc n => exact Below.neg (below_ofNat hn ha hc) hc

/-! ## Rounding to whole numbers -/

/-- The mantissa of a double with a fraction is a whole number below `2 ^ 53`, and no smaller than the whole number
nearest to its value. -/
theorem nearestWhole_le {m : Nat} {e : Int} (he : e < 0) : nearestWhole m e ≤ m := by
  unfold nearestWhole
  have hpower : 2 ≤ Nat.pow 2 (-e).toNat := by
    calc 2 = 2 ^ 1 := rfl
      _ ≤ 2 ^ (-e).toNat := Nat.pow_le_pow_right (by decide) (by omega)
  rw [show e.toNat = 0 by omega]
  generalize Nat.pow 2 (-e).toNat = p at *
  rcases Nat.eq_zero_or_pos m with rfl | hm
  · rw [Nat.le_zero, Nat.div_eq_zero_iff]
    right
    show 2 * (0 * 1) + p < 2 * p
    omega
  · apply Nat.div_le_of_le_mul
    show 2 * (m * 1) + p ≤ 2 * p * m
    nlinarith

theorem mantissa_parts_lt {x : Float} {negative : Bool} {m : Nat} {e : Int}
    (h : parts x = .finite negative m e) : m < 2 ^ 53 := by
  have hfraction : x.toBits.toNat % Nat.pow 2 52 < 2 ^ 52 := Nat.mod_lt _ (by decide)
  unfold parts at h
  dsimp only at h
  split at h
  · split at h <;> cases h
  · split at h
    · cases h
      omega
    · cases h
      show 2 ^ 52 + x.toBits.toNat % Nat.pow 2 52 < 2 ^ 53
      omega

/-- **Rounding to a whole number** makes no double larger, but for what the rounding of a mantissa adds. -/
theorem Below.rounded {x : Float} (hx : Below k x) (hk : 56 ≤ k) (hk' : k ≤ 1024) : Below k (rounded x) := by
  unfold Binary64.rounded
  split
  · next negative m e hparts =>
    have hm := mantissa_parts_lt hparts
    split
    · exact hx
    · next he =>
      have hwhole : Below 56 (Float.ofNat (nearestWhole m e)) :=
        below_ofNat ((nearestWhole_le (Int.not_le.mp he)).trans_lt hm) (Nat.le_refl _) (by decide)
      split
      · exact (hwhole.mono hk).neg hk'
      · exact hwhole.mono hk
  · exact hx

end

end EdaParts.Binary64
