import EdaParts.Proofs.Binary64.Magnitude
import EdaParts.Proofs.Binary64.Order

/-!
# How small doubles get

A calculation with doubles that are far enough from zero stays on its side of zero. A double beyond a power of two on
one side is at least that large, or infinite; rounding never takes it back over a power of two.

* `Beyond` : the double is on a side of zero, and no smaller than a power of two;
* `beyond_roundWithAccuracy`, `beyond_pack` : what is rounded and stored stays beyond the power;
* `Beyond.mul`, `Beyond.div`, `Beyond.neg`, `beyond_ofNat`, `Beyond.rounded` : the calculations;
* `beyond_positive_iff`, `not_beyond_iff` : the doubles from one half on, and those nearer to zero.
-/

namespace EdaParts.Binary64

open Float.Model Float.Model.UnpackedFloat

/-! ## Sizes on a side -/

/-- On the side of zero the size is at least `2 ^ (k - 1)`. The mantissa has all its 53 bits, as in all doubles of that
size that are stored. -/
def SizeBeyond (s : Sign) (k : Int) : UnpackedFloat → Prop
  | .finite t m e _ => t = s ∧ m.log2 = 52 ∧ k ≤ e + 53
  | .infinity t => t = s
  | .zero _ | .notANumber => False

/-- The double is on the side of zero, and its size is at least `2 ^ (k - 1)`. -/
def Beyond (s : Sign) (k : Int) (x : Float) : Prop := SizeBeyond s k x.toModel.unpack

instance (s : Sign) (k : Int) (u : UnpackedFloat) : Decidable (SizeBeyond s k u) :=
  match u with
  | .finite t m e _ => inferInstanceAs (Decidable (t = s ∧ m.log2 = 52 ∧ k ≤ e + 53))
  | .infinity t => inferInstanceAs (Decidable (t = s))
  | .zero _ | .notANumber => isFalse id

instance (s : Sign) (k : Int) (x : Float) : Decidable (Beyond s k x) :=
  inferInstanceAs (Decidable (SizeBeyond _ _ _))

section
variable {s t : Sign} {m n : Nat} {e f j k l : Int} {u v : UnpackedFloat} {x y : Float}

theorem SizeBeyond.mono (h : SizeBeyond s k u) (hlk : l ≤ k) : SizeBeyond s l u := by
  cases u with
  | finite t m e hm => exact ⟨h.1, h.2.1, hlk.trans h.2.2⟩
  | infinity t => exact h
  | _ => cases h

/-- A double stands on one side. -/
theorem Beyond.side_eq (h : Beyond s k x) (h' : Beyond t l x) : s = t := by
  rw [Beyond] at h h'
  cases hx : x.toModel.unpack with
  | finite t' m e hm =>
    rw [hx] at h h'
    exact h.1.symm.trans h'.1
  | infinity t' =>
    rw [hx] at h h'
    exact h.symm.trans h'
  | _ =>
    rw [hx] at h
    cases h

theorem Beyond.mono (h : Beyond s k x) (hlk : l ≤ k) : Beyond s l x :=
  SizeBeyond.mono h hlk

/-! ## Rounding -/

theorem le_roundedMantissa (em : ExtendedMantissa) : em.mantissa ≤ em.roundedMantissa := by
  rcases em with ⟨m, r, s⟩
  cases r <;> cases s <;> simp only [ExtendedMantissa.roundedMantissa, ExtendedMantissa.accuracy,
    Accuracy.roundToNearestEven] <;> omega

/-- A large mantissa is shifted to 53 bits. -/
theorem shiftOf_eq (hm : 52 ≤ m.log2) (h : -1021 ≤ totalExponent m e) : shiftOf m e = m.log2 - 52 := by
  rw [shiftOf]
  rw [totalExponent] at *
  omega

theorem log2_div_shift (hm : 52 ≤ m.log2) : (m / 2 ^ (m.log2 - 52)).log2 = 52 := by
  obtain ⟨n, hn⟩ := Nat.exists_eq_add_of_le hm
  have hne : m ≠ 0 := by
    rintro rfl
    exact absurd hm (by decide)
  have hpos := Nat.two_pow_pos n
  rw [hn, Nat.add_sub_cancel_left]
  have hlow : 2 ^ 52 ≤ m / 2 ^ n := by
    rw [Nat.le_div_iff_mul_le hpos, ← Nat.pow_add, ← hn]
    exact Nat.log2_self_le hne
  have hhigh : m / 2 ^ n < 2 ^ (52 + 1) := by
    rw [Nat.div_lt_iff_lt_mul hpos, ← Nat.pow_add, show 52 + 1 + n = m.log2 + 1 by omega]
    exact Nat.lt_log2_self
  exact (Nat.log2_eq_iff (by omega)).mpr ⟨hlow, hhigh⟩

/-- **Rounding** keeps a size beyond a power of two. -/
theorem beyond_roundWithAccuracy (s : Sign) (a : Accuracy) (hm : 52 ≤ m.log2) (hk : k ≤ totalExponent m e)
    (hlow : -1021 ≤ k) : SizeBeyond s k (roundWithAccuracy Format.binary64 s m e a) := by
  have hfirst := le_roundedMantissa (ExtendedMantissa.ofMantissaAndAccuracy m a >>> shiftOf m e)
  have htotal : totalExponent m e = m.log2 + 1 + e := rfl
  have hlog := log2_div_shift hm
  rw [mantissa_shiftRight, mantissa_ofMantissaAndAccuracy, shiftOf_eq hm (hlow.trans hk)] at hfirst
  rw [roundWithAccuracy, shiftToTargetExponent_eq]
  dsimp only
  rw [shiftToTargetExponent_eq, shiftOf_eq hm (hlow.trans hk)]
  dsimp only
  generalize (ExtendedMantissa.ofMantissaAndAccuracy m a >>> (m.log2 - 52)).roundedMantissa = r at *
  -- The rounded mantissa has 53 bits, or one more.
  have hr : 52 ≤ r.log2 := by
    have hne : m / 2 ^ (m.log2 - 52) ≠ 0 := by
      intro hzero
      rw [hzero] at hlog
      cases hlog
    have hpower := Nat.log2_self_le hne
    rw [hlog] at hpower
    exact (Nat.le_log2 (by omega)).mpr (hpower.trans hfirst)
  have hrlog := log2_div_shift hr
  have hrtotal : totalExponent r (e + ↑(m.log2 - 52)) = r.log2 + 1 + (e + ↑(m.log2 - 52)) := rfl
  rw [shiftOf_eq hr (by omega), mantissa_shiftRight, mantissa_ofMantissaAndAccuracy]
  rw [dif_neg]
  · exact ⟨rfl, hrlog, by omega⟩
  · intro hzero
    rw [hzero] at hrlog
    cases hrlog

theorem beyond_round (s : Sign) (hm : m ≠ 0) (hk : k ≤ totalExponent m e) (hlow : -1021 ≤ k) :
    SizeBeyond s k (round Format.binary64 s m e) := by
  have htotal : totalExponent m e = m.log2 + 1 + e := rfl
  have hlog : ∀ j, (m <<< j).log2 = m.log2 + j := by
    intro j
    rw [Nat.shiftLeft_eq, Nat.log2_eq_iff (Nat.mul_ne_zero hm (Nat.two_pow_pos j).ne'), Nat.add_right_comm,
      Nat.pow_add, Nat.pow_add]
    exact ⟨Nat.mul_le_mul_right _ (Nat.log2_self_le hm),
      Nat.mul_lt_mul_of_pos_right Nat.lt_log2_self (Nat.two_pow_pos j)⟩
  apply beyond_roundWithAccuracy _ _ _ _ hlow
  · rw [hlog, targetExponent_eq]
    omega
  · show k ≤ ((m <<< _).log2 : Int) + 1 + (e - _)
    rw [hlog]
    omega

/-! ## Storing -/

theorem unpackSign_packComponents (s : Sign) (e : BitVec 11) (v : BitVec 52) :
    unpackSign (packComponents Format.binary64 s e v) = s.toBitVec := by
  show (s.toBitVec ++ e ++ v).extractLsb' 63 1 = s.toBitVec
  rw [BitVec.extractLsb'_append_eq_of_le (by decide), BitVec.extractLsb'_append_eq_of_le (by decide)]
  cases s <;> rfl

theorem ofBitVec_toBitVec (s : Sign) : Sign.ofBitVec s.toBitVec = s := by
  cases s <;> rfl

/-- What is stored with an exponent between the first and the last one. -/
theorem sizeBeyond_packComponents (s : Sign) {b : Nat} (v : BitVec 52) (hfirst : 0 < b) (hlast : b < 2047)
    (hk : k + 1022 ≤ b) :
    SizeBeyond s k (UnpackedFloat.unpack Format.binary64 (packComponents Format.binary64 s (BitVec.ofNat 11 b) v)) := by
  have hnat : (BitVec.ofNat 11 b).toNat = b := by
    rw [BitVec.toNat_ofNat]
    omega
  have hne : ∀ c < 2048, c ≠ b → BitVec.ofNat 11 b ≠ BitVec.ofNat 11 c := by
    intro c hc hcb heq
    have hcnat : (BitVec.ofNat 11 c).toNat = c := by
      rw [BitVec.toNat_ofNat]
      omega
    exact hcb (hcnat.symm.trans ((congrArg BitVec.toNat heq).symm.trans hnat))
  have hinfinite : BitVec.ofNat 11 b ≠ -1#11 := hne 2047 (by decide) (by omega)
  have hsmall : BitVec.ofNat 11 b ≠ 0#11 := hne 0 (by decide) (by omega)
  unfold UnpackedFloat.unpack
  simp only [unpackExponent_packComponents, unpackMantissa_packComponents, unpackSign_packComponents, ofBitVec_toBitVec]
  rw [if_neg hinfinite, if_neg hsmall]
  refine ⟨rfl, log2_append_one v, ?_⟩
  show k ≤ ((BitVec.ofNat 11 b).toNat : Int) - 1075 + 53
  rw [hnat]
  omega

/-- **Storing** keeps a size beyond a power of two. -/
theorem beyond_pack (h : SizeBeyond s k u) (hlow : -1021 ≤ k) : SizeBeyond s k (Float.Model.pack u).unpack := by
  have hinfinity : SizeBeyond s k (Float.Model.pack (.infinity s)).unpack := by cases s <;> exact rfl
  cases u with
  | infinity t =>
    obtain rfl : t = s := h
    exact hinfinity
  | finite t m e hm =>
    obtain ⟨rfl, hlog, he⟩ := h
    by_cases hlarge : 2048 ≤ (e + 1023 + 52).toNat + 1
    · have hpack : Float.Model.pack (.finite t m e hm) = Float.Model.pack (.infinity t) := by
        have hbits : UnpackedFloat.pack Format.binary64 (.finite t m e hm) = packedInfinity Format.binary64 t :=
          if_pos hlarge
        simp only [Float.Model.pack, hbits]
        rfl
      rw [hpack]
      exact hinfinity
    · have hbits : UnpackedFloat.pack Format.binary64 (.finite t m e hm) =
          packComponents Format.binary64 t (BitVec.ofNat 11 (e + 1023 + 52).toNat) (BitVec.ofNat 52 m) :=
        (if_neg hlarge).trans (if_pos (congrArg (· + 1) hlog))
      show SizeBeyond t k (UnpackedFloat.unpack Format.binary64
        (UnpackedFloat.pack Format.binary64 (.finite t m e hm)))
      rw [hbits]
      exact sizeBeyond_packComponents t _ (by omega) (by omega) (by omega)
  | _ => cases h

/-! ## Calculations -/

theorem SizeBeyond.neg (h : SizeBeyond s k u) : SizeBeyond (-s) k u.neg := by
  cases u with
  | infinity t => exact congrArg _ h
  | finite t m e hm => exact ⟨congrArg _ h.1, h.2⟩
  | _ => cases h

theorem Beyond.neg (h : Beyond s k x) (hlow : -1021 ≤ k) : Beyond (-s) k (-x) :=
  beyond_pack (SizeBeyond.neg h) hlow

theorem le_totalExponent_mul (hm : m.log2 = 52) (hn : n.log2 = 52) : 105 + e ≤ totalExponent (m * n) e := by
  have hmne : m ≠ 0 := by
    rintro rfl
    cases hm
  have hnne : n ≠ 0 := by
    rintro rfl
    cases hn
  have hlog : 104 ≤ (m * n).log2 := by
    apply (Nat.le_log2 (Nat.mul_ne_zero hmne hnne)).mpr
    calc 2 ^ 104 = 2 ^ m.log2 * 2 ^ n.log2 := by rw [hm, hn, ← Nat.pow_add]
      _ ≤ m * n := Nat.mul_le_mul (Nat.log2_self_le hmne) (Nat.log2_self_le hnne)
  rw [totalExponent]
  omega

theorem SizeBeyond.mul (hu : SizeBeyond s k u) (hv : SizeBeyond t l v) (hj : j + 1 ≤ k + l) (hlow : -1021 ≤ j) :
    SizeBeyond (s * t) j (UnpackedFloat.mul Format.binary64 u v) := by
  cases u with
  | infinity s' =>
    obtain rfl : s' = s := hu
    cases v with
    | infinity t' => exact congrArg _ hv
    | finite t' n f hn => exact congrArg _ hv.1
    | _ => cases hv
  | finite s' m e hm =>
    obtain ⟨rfl, hmlog, he⟩ := hu
    cases v with
    | infinity t' => exact congrArg _ hv
    | finite t' n f hn =>
      obtain ⟨rfl, hnlog, hf⟩ := hv
      have htotal := le_totalExponent_mul (e := e + f) hmlog hnlog
      rw [mul_finite]
      refine beyond_roundWithAccuracy _ _ ?_ (by omega) hlow
      rw [totalExponent] at htotal
      omega
    | _ => cases hv
  | _ => cases hu

theorem Beyond.mul (hx : Beyond s k x) (hy : Beyond t l y) (hj : j + 1 ≤ k + l) (hlow : -1021 ≤ j) :
    Beyond (s * t) j (x * y) :=
  beyond_pack (SizeBeyond.mul hx hy hj hlow) hlow

/-- A divisor has a side and a size of its own. -/
theorem SizeBeyond.div {b : Nat} (hu : SizeBeyond s k u) (hv : SizeBeyond t l v) (hbelow : SizeBelow b v)
    (hj : j + b ≤ k) (hlow : -1021 ≤ j) : SizeBeyond (s / t) j (UnpackedFloat.div Format.binary64 u v) := by
  cases v with
  | finite t' n f hn =>
    obtain ⟨rfl, hnlog, -⟩ := hv
    have hf := hbelow.2
    cases u with
    | infinity s' => exact congrArg (· / t') hu
    | finite s' m e hm =>
      obtain ⟨rfl, hmlog, he⟩ := hu
      unfold UnpackedFloat.div divCore
      dsimp only
      rw [targetExponent_eq, totalExponent, totalExponent, hmlog, hnlog]
      -- The dividend is shifted so that the quotient has all the bits of a mantissa.
      have htarget : min (e - f) (max (((52 : Nat) : Int) + 1 + e - (((52 : Nat) : Int) + 1 + f) - 53) (-1074)) =
          e - f - 53 := by omega
      have hshift : (e - f - (e - f - 53)).toNat = 53 := by omega
      rw [htarget, hshift]
      have hquotient : 52 ≤ (m <<< 53 / n).log2 := by
        have hpower : 2 ^ 52 ≤ m <<< 53 / n := by
          rw [Nat.le_div_iff_mul_le hn, Nat.shiftLeft_eq]
          have hnlt : n < 2 ^ (n.log2 + 1) := Nat.lt_log2_self
          have hmle := Nat.log2_self_le hm.ne'
          rw [hnlog] at hnlt
          rw [hmlog] at hmle
          omega
        exact (Nat.le_log2 (by omega)).mpr hpower
      refine beyond_roundWithAccuracy _ _ hquotient ?_ hlow
      rw [totalExponent]
      omega
    | _ => cases hu
  | infinity t' => cases hbelow
  | _ => cases hv

theorem Beyond.div {b : Nat} (hx : Beyond s k x) (hy : Beyond t l y) (hbelow : Below b y) (hj : j + b ≤ k)
    (hlow : -1021 ≤ j) : Beyond (s / t) j (x / y) :=
  beyond_pack (SizeBeyond.div hx hy hbelow hj hlow) hlow

theorem beyond_toFloat {n : UInt64} (hn : n.toNat ≠ 0) : Beyond .positive 1 n.toFloat := by
  have hsize : SizeBeyond .positive 1 (normalize Format.binary64 n.toNat 0 .positive) := by
    unfold UnpackedFloat.normalize
    split
    · next hlt =>
      rw [Int.compare_eq_lt] at hlt
      omega
    · next heq =>
      rw [Int.compare_eq_eq] at heq
      omega
    · refine beyond_round _ hn ?_ (by decide)
      rw [totalExponent]
      omega
  exact beyond_pack hsize (by decide)

/-- Whole numbers of up to 53 bits. -/
theorem beyond_ofNat (hn : 0 < n) (hlt : n < 2 ^ 53) : Beyond .positive 1 (Float.ofNat n) := by
  show Beyond .positive 1 (Float.ofScientific n false 0)
  unfold Float.ofScientific
  split
  · have hword : n.toUInt64.toNat = n := UInt64.toNat_ofNat_of_lt' (hlt.trans (by decide))
    have hone : Beyond .positive 1 (Float.ofBits 0x3FF0000000000000) := by decide
    exact Beyond.mul (beyond_toFloat (by omega)) hone (by decide) (by decide)
  · next hlarge => exact absurd ⟨hlt, Nat.zero_le 22⟩ hlarge

/-! ## Stored doubles -/

/-- A stored mantissa has all its bits, unless the exponent is the least one. -/
theorem log2_unpack {hm : 0 < m} (h : x.toModel.unpack = .finite s m e hm) :
    m.log2 = 52 ∧ -1074 ≤ e ∨ m.log2 ≤ 51 ∧ e = -1074 := by
  have hunpack : x.toModel.unpack = UnpackedFloat.unpack Format.binary64 x.toBits.toBitVec := rfl
  rw [hunpack, UnpackedFloat.unpack] at h
  dsimp only at h
  split at h
  · split at h <;> cases h
  · split at h
    · next hfirst =>
      split at h
      · cases h
      · obtain ⟨-, rfl, rfl⟩ := UnpackedFloat.finite.inj h
        refine Or.inr ⟨log2_toNat_le _, ?_⟩
        rw [hfirst]
        rfl
    · next hfirst =>
      obtain ⟨-, rfl, rfl⟩ := UnpackedFloat.finite.inj h
      have hpos := Nat.pos_of_ne_zero fun hzero => hfirst (BitVec.toNat_inj.mp hzero)
      refine Or.inl ⟨log2_append_one _, ?_⟩
      show -1074 ≤ (_ : Int) - 1075
      omega

theorem ne_zero_of_log2 (hm : m.log2 = 52) : m ≠ 0 := by
  rintro rfl
  cases hm

theorem nearestWhole_pos (hm : m.log2 = 52) (he : -53 ≤ e) : 0 < nearestWhole m e := by
  have hmle := Nat.log2_self_le (ne_zero_of_log2 hm)
  have hscaled : m ≤ m * Nat.pow 2 e.toNat := Nat.le_mul_of_pos_right m (Nat.two_pow_pos _)
  have hpower : Nat.pow 2 (-e).toNat ≤ 2 ^ 53 := Nat.pow_le_pow_right (by decide) (by omega)
  have hpos : 0 < Nat.pow 2 (-e).toNat := Nat.two_pow_pos _
  rw [hm] at hmle
  exact Nat.div_pos (by omega) (by omega)

theorem nearestWhole_eq_zero (hm : m.log2 ≤ 52) (he : e < -53) : nearestWhole m e = 0 := by
  have hmlt : m < 2 ^ 53 := Nat.lt_log2_self.trans_le (Nat.pow_le_pow_right (by decide) (by omega))
  have hpower : 2 ^ 54 ≤ Nat.pow 2 (-e).toNat := Nat.pow_le_pow_right (by decide) (by omega)
  have hone : Nat.pow 2 e.toNat = 1 := by rw [show e.toNat = 0 by omega]
  rw [nearestWhole, hone]
  exact Nat.div_eq_of_lt (by omega)

/-- **Rounding to a whole number** takes a double from one half on to one at least. -/
theorem Beyond.rounded (h : Beyond s 0 x) : Beyond s 1 (rounded x) := by
  have hparts := parts_eq x
  have hbeyond := h
  rw [Beyond] at hbeyond
  cases hx : x.toModel.unpack with
  | infinity t =>
    rw [hx] at hparts hbeyond
    have hrounded : Binary64.rounded x = x := by rw [Binary64.rounded, hparts]; rfl
    rw [hrounded, Beyond, hx]
    exact hbeyond
  | finite t m e hm =>
    rw [hx] at hparts hbeyond
    obtain ⟨rfl, hlog, he⟩ := hbeyond
    rw [Binary64.rounded, hparts]
    dsimp only [partsOf]
    by_cases hwhole : 0 ≤ e
    · rw [if_pos hwhole, Beyond, hx]
      exact ⟨rfl, hlog, by omega⟩
    · rw [if_neg hwhole]
      have hlt := (nearestWhole_le (m := m) (Int.not_le.mp hwhole)).trans_lt (mantissa_parts_lt hparts)
      have hnearest := beyond_ofNat (nearestWhole_pos hlog (by omega)) hlt
      cases t with
      | positive => exact hnearest
      | negative => exact hnearest.neg (by decide)
  | _ =>
    rw [hx] at hbeyond
    cases hbeyond

/-- What is nearer to zero than one half is rounded to it. -/
theorem unpack_rounded_eq_zero (hx : IsNumber x) (h : ∀ s, ¬ Beyond s 0 x) :
    ∃ t, (rounded x).toModel.unpack = .zero t := by
  have hparts := parts_eq x
  -- Either zero has the sign of the double.
  have hzero {negative : Bool} {m : Nat} {e : Int} (hparts : parts x = .finite negative m e)
      (hm : m.log2 ≤ 52) (he : e < -53) : ∃ t, (Binary64.rounded x).toModel.unpack = .zero t := by
    rw [Binary64.rounded, hparts]
    dsimp only
    rw [if_neg (by omega), nearestWhole_eq_zero hm he]
    cases negative
    · exact ⟨.positive, rfl⟩
    · exact ⟨.negative, rfl⟩
  cases hunpack : x.toModel.unpack with
  | notANumber =>
    have hnan : x.isNaN = x.toModel.unpack.isNaN := rfl
    rw [IsNumber, hnan, hunpack] at hx
    cases hx
  | infinity t =>
    refine absurd ?_ (h t)
    rw [Beyond, hunpack]
    rfl
  | zero t =>
    rw [hunpack] at hparts
    exact hzero hparts (by decide) (by decide)
  | finite t m e hm =>
    have hbeyond := h t
    rw [Beyond, hunpack] at hbeyond
    rw [hunpack] at hparts
    rcases log2_unpack hunpack with ⟨hlog, -⟩ | ⟨hlog, rfl⟩
    · exact hzero hparts hlog.le (Int.not_le.mp fun hle => hbeyond ⟨rfl, hlog, by omega⟩)
    · exact hzero hparts (by omega) (by decide)

/-! ## Comparisons -/

theorem rank_half : rank (1 / 2) = some (toLex (1, toLex (-53, 2 ^ 52))) := by
  decide

theorem rank_neg_half : rank (-1 / 2) = some (toLex (-1, toLex (53, -2 ^ 52))) := by
  decide

/-- Of stored doubles the exponent tells which are as large as one half. -/
theorem half_le_iff {hm : 0 < m} (h : x.toModel.unpack = .finite s m e hm) :
    m.log2 = 52 ∧ 0 ≤ e + 53 ↔ -53 < e ∨ -53 = e ∧ 2 ^ 52 ≤ m := by
  have hpower : m.log2 = 52 → 2 ^ 52 ≤ m := fun hlog => hlog ▸ Nat.log2_self_le hm.ne'
  rcases log2_unpack h with ⟨hlog, -⟩ | ⟨hlog, rfl⟩
  · have := hpower hlog
    omega
  · omega

/-- **The doubles from one half on.** -/
theorem beyond_positive_iff : Beyond .positive 0 x ↔ 1 / 2 ≤ x := by
  rw [le_iff, rank_half, Beyond, rank]
  rcases hx : x.toModel.unpack with (_ | _) | _ | _ | ⟨_ | _, m, e, hm⟩
  case finite.positive =>
    have hiff := half_le_iff hx
    simpa [rankOf, SizeBeyond, Prod.Lex.toLex_le_toLex] using mod_cast hiff
  all_goals simp [rankOf, SizeBeyond, Prod.Lex.toLex_le_toLex]

/-- The doubles up to minus one half. -/
theorem beyond_negative_iff : Beyond .negative 0 x ↔ x ≤ -1 / 2 := by
  rw [le_iff, rank_neg_half, Beyond, rank]
  rcases hx : x.toModel.unpack with (_ | _) | _ | _ | ⟨_ | _, m, e, hm⟩
  case finite.negative =>
    have hiff := half_le_iff hx
    simp [rankOf, SizeBeyond, Prod.Lex.toLex_le_toLex]
    omega
  all_goals simp [rankOf, SizeBeyond, Prod.Lex.toLex_le_toLex]

/-- The numbers nearer to zero than one half. -/
theorem not_beyond_iff (hx : IsNumber x) : (∀ s, ¬ Beyond s 0 x) ↔ -1 / 2 < x ∧ x < 1 / 2 := by
  have hhalf : IsNumber (1 / 2) ∧ IsNumber (-1 / 2) := by decide
  constructor
  · intro h
    constructor
    · by_contra hlt
      exact h .negative (beyond_negative_iff.mpr (hhalf.2.le_of_not_lt hx hlt))
    · by_contra hlt
      exact h .positive (beyond_positive_iff.mpr (hx.le_of_not_lt hhalf.1 hlt))
  · rintro ⟨hnegative, hpositive⟩ (_ | _) hbeyond
    · exact not_lt_of_le (beyond_negative_iff.mp hbeyond) hnegative
    · exact not_lt_of_le (beyond_positive_iff.mp hbeyond) hpositive

theorem rank_zero : rank 0 = some (toLex (0, toLex (0, 0))) := by
  decide

theorem Beyond.pos (h : Beyond .positive k x) : 0 < x := by
  rw [lt_iff, rank_zero, rank]
  rw [Beyond] at h
  rcases hx : x.toModel.unpack with (_ | _) | _ | _ | ⟨_ | _, m, e, hm⟩ <;> rw [hx] at h
  all_goals simp [SizeBeyond, rankOf, Prod.Lex.toLex_lt_toLex] at *

theorem Beyond.lt_zero (h : Beyond .negative k x) : x < 0 := by
  rw [lt_iff, rank_zero, rank]
  rw [Beyond] at h
  rcases hx : x.toModel.unpack with (_ | _) | _ | _ | ⟨_ | _, m, e, hm⟩ <;> rw [hx] at h
  all_goals simp [SizeBeyond, rankOf, Prod.Lex.toLex_lt_toLex] at *

theorem Beyond.beq_zero (h : Beyond s k x) : (x == 0) = false := by
  rw [← Bool.not_eq_true, beq_iff_le]
  rintro ⟨hle, hge⟩
  cases s with
  | negative => exact not_lt_of_le hge h.lt_zero
  | positive => exact not_lt_of_le hle h.pos

/-! ## No numbers -/

theorem unpack_of_isNaN (h : x.isNaN = true) : x.toModel.unpack = .notANumber := by
  have hnan : x.isNaN = x.toModel.unpack.isNaN := rfl
  rw [hnan] at h
  cases hx : x.toModel.unpack with
  | notANumber => rfl
  | _ =>
    rw [hx] at h
    cases h

theorem isNaN_mul (h : x.isNaN = true) (y : Float) : (x * y).isNaN = true := by
  have hproduct : x * y = .ofModel (.pack (UnpackedFloat.mul Format.binary64 x.toModel.unpack y.toModel.unpack)) := rfl
  have hnan (v : UnpackedFloat) : UnpackedFloat.mul Format.binary64 .notANumber v = .notANumber := by
    cases v <;> rfl
  rw [hproduct, unpack_of_isNaN h, hnan]
  decide

theorem isNaN_div (h : x.isNaN = true) (y : Float) : (x / y).isNaN = true := by
  have hquotient : x / y = .ofModel (.pack (UnpackedFloat.div Format.binary64 x.toModel.unpack y.toModel.unpack)) :=
    rfl
  have hnan (v : UnpackedFloat) : UnpackedFloat.div Format.binary64 .notANumber v = .notANumber := by
    cases v <;> rfl
  rw [hquotient, unpack_of_isNaN h, hnan]
  decide

theorem isNaN_rounded (h : x.isNaN = true) : (rounded x).isNaN = true := by
  have hparts := parts_eq x
  rw [unpack_of_isNaN h] at hparts
  have hrounded : Binary64.rounded x = x := by rw [Binary64.rounded, hparts]; rfl
  rw [hrounded]
  exact h

end

end EdaParts.Binary64
