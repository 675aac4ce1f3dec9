import EdaParts.Proofs.Binary64.Magnitude
import EdaParts.Proofs.Decimal.Numeral
import EdaParts.Proofs.Text.Pieces

/-!
# Numbers that are written as decimals

A number of a library file is a decimal just if it is a finite double and stays one with its point four
places further right, since this is how it is rounded. What is no decimal is `NaN` or one of two infinities.

* `IsDecimal`, `IsWordOf` : a decimal without an exponent, and a word of a format;
* `InReach` : a number that can be rounded to four places;
* `isDecimal_numberText_iff` : just these numbers are written as decimals;
* `Below.roundTo`, `Below.inReach` : what is not too large is in reach.
-/

namespace EdaParts

open Binary64

/-! ## Decimals -/

namespace Decimal

/-- One or more digits. -/
def IsDigits (cs : List Char) : Prop := cs ≠ [] ∧ ∀ c ∈ cs, c.isDigit = true

-- Characters are finitely many, but the ones of the text are to be tried.
instance (cs : List Char) : Decidable (IsDigits cs) := @instDecidableAnd _ _ _ (List.decidableBAll _ _)

/-- Digits, and possibly a point and more digits. -/
def IsUnsigned (cs : List Char) : Prop :=
  (Text.pieces '.' cs).length ≤ 2 ∧ ∀ part ∈ Text.pieces '.' cs, IsDigits part

instance (cs : List Char) : Decidable (IsUnsigned cs) := inferInstanceAs (Decidable (_ ∧ _))

/-- A decimal: possibly a minus sign, digits, and possibly a point and more digits. -/
def IsDecimal (cs : List Char) : Prop :=
  IsUnsigned cs ∨ cs.head? = some '-' ∧ IsUnsigned cs.tail

instance (cs : List Char) : Decidable (IsDecimal cs) := inferInstanceAs (Decidable (_ ∨ _))

/-- One of the words that a format knows, or a decimal. -/
def IsWordOf (keywords : List String) (w : String) : Prop := w ∈ keywords ∨ IsDecimal w.toList

instance (keywords : List String) (w : String) : Decidable (IsWordOf keywords w) :=
  inferInstanceAs (Decidable (_ ∨ _))

section
variable {cs ds : List Char}

theorem IsDigits.append (hc : IsDigits cs) (hd : ∀ d ∈ ds, d.isDigit = true) : IsDigits (cs ++ ds) := by
  refine ⟨List.append_ne_nil_of_left_ne_nil hc.1 ds, fun c hmem => ?_⟩
  rcases List.mem_append.mp hmem with hmem | hmem
  · exact hc.2 c hmem
  · exact hd c hmem

theorem IsDigits.not_mem (hc : IsDigits cs) {c : Char} (h : c.isDigit = false) : c ∉ cs := by
  intro hmem
  rw [hc.2 c hmem] at h
  cases h

theorem isDigits_digitChars (n : Nat) : IsDigits (digitChars n) :=
  ⟨Nat.toDigits_ne_nil, fun _ hc => Nat.isDigit_of_mem_toDigits (by decide) (by decide) hc⟩

theorem isDigit_of_mem_zeros {k : Nat} {c : Char} (hc : c ∈ List.replicate k '0') : c.isDigit = true := by
  rw [List.eq_of_mem_replicate hc]
  rfl

theorem IsDigits.isUnsigned (hc : IsDigits cs) : IsUnsigned cs := by
  rw [IsUnsigned, Text.pieces_of_not_mem (hc.not_mem (by decide)), List.forall_mem_singleton]
  exact ⟨Nat.le_succ 1, hc⟩

theorem isUnsigned_pointed (hc : IsDigits cs) (hd : IsDigits ds) : IsUnsigned (cs ++ '.' :: ds) := by
  rw [IsUnsigned, Text.pieces_append_cons (hc.not_mem (by decide)),
    Text.pieces_of_not_mem (hd.not_mem (by decide)), List.forall_mem_cons, List.forall_mem_singleton]
  exact ⟨Nat.le_refl 2, hc, hd⟩

theorem isUnsigned_positional (d : Scaled) : IsUnsigned (positional d) := by
  have hdigits := isDigits_digitChars d.digits
  unfold positional
  dsimp only
  split
  · split
    · decide
    · exact (hdigits.append fun c hc => isDigit_of_mem_zeros hc).isUnsigned
  · next hneg =>
    -- There is at least one digit on either side of the point.
    generalize hplaces : (-d.exponent).toNat = places
    have hmem : ∀ c ∈ List.replicate (places + 1 - (digitChars d.digits).length) '0' ++ digitChars d.digits,
        c.isDigit = true := by
      intro c hc
      rcases List.mem_append.mp hc with hc | hc
      · exact isDigit_of_mem_zeros hc
      · exact hdigits.2 c hc
    have hlength : places + 1 ≤ (List.replicate (places + 1 - (digitChars d.digits).length) '0' ++
        digitChars d.digits).length := by
      rw [List.length_append, List.length_replicate]
      omega
    generalize List.replicate (places + 1 - (digitChars d.digits).length) '0' ++ digitChars d.digits =
      padded at hmem hlength
    apply isUnsigned_pointed
    · refine ⟨?_, fun c hc => hmem c (List.mem_of_mem_take hc)⟩
      rw [← List.length_pos_iff, List.length_take]
      omega
    · refine ⟨?_, fun c hc => hmem c (List.mem_of_mem_drop hc)⟩
      rw [← List.length_pos_iff, List.length_drop]
      omega

theorem isDecimal_signed (negative : Bool) (hc : IsUnsigned cs) : IsDecimal (signed negative cs) := by
  cases negative with
  | true => exact Or.inr ⟨rfl, hc⟩
  | false => exact Or.inl hc

theorem isDecimal_toString_nat (n : Nat) : IsDecimal (toString n).toList := by
  rw [Nat.toString_eq_ofList_toDigits, String.toList_ofList]
  exact Or.inl (isDigits_digitChars n).isUnsigned

theorem isDecimal_toString_int (n : Int) : IsDecimal (toString n).toList := by
  cases n with
  | ofNat n => exact isDecimal_toString_nat n
  | negSucc n =>
    rw [toList_toString_negSucc, Nat.toString_eq_ofList_toDigits, String.toList_ofList]
    exact isDecimal_signed true (isDigits_digitChars (n + 1)).isUnsigned

/-! ## Doubles -/

/-- What is written for no number, and beyond every number. -/
def nonNumbers : List String := ["NaN", "inf", "-inf"]

theorem not_isDecimal_of_mem_nonNumbers {s : String} (h : s ∈ nonNumbers) : ¬ IsDecimal s.toList := by
  have hall : ∀ s ∈ nonNumbers, ¬ IsDecimal s.toList := by decide
  exact hall s h

variable {x : Float}

theorem isDecimal_plain (h : x.isFinite = true) : IsDecimal (plain x).toList := by
  obtain ⟨negative, m, e, hparts⟩ := isFinite_iff_parts.mp h
  rw [plain, spell, hparts]
  dsimp only
  rw [String.toList_ofList]
  exact isDecimal_signed negative (isUnsigned_positional _)

theorem plain_mem_nonNumbers (h : x.isFinite = false) : plain x ∈ nonNumbers := by
  unfold plain spell
  split
  · decide
  · next negative _ => cases negative <;> decide
  · next negative m e hparts =>
    have hfinite := isFinite_iff_parts.mpr ⟨negative, m, e, hparts⟩
    exact absurd (h.symm.trans hfinite) (by decide)

/-- **A double is written as a decimal** just if it is finite. -/
theorem isDecimal_plain_iff : IsDecimal (plain x).toList ↔ x.isFinite = true := by
  refine ⟨fun h => ?_, isDecimal_plain⟩
  rw [← Bool.not_eq_false]
  exact fun hx => not_isDecimal_of_mem_nonNumbers (plain_mem_nonNumbers hx) h

end

end Decimal

/-! ## Rounding to places -/

section
variable {x y : Float} {k c : Nat} {places : Int32}

theorem unpack_of_not_isFinite (h : x.isFinite = false) :
    x.toModel.unpack = .notANumber ∨ ∃ s, x.toModel.unpack = .infinity s := by
  have hunpack : x.isFinite = x.toModel.unpack.isFinite := rfl
  rw [hunpack] at h
  cases hx : x.toModel.unpack with
  | notANumber => exact Or.inl rfl
  | infinity s => exact Or.inr ⟨s, rfl⟩
  | _ =>
    rw [hx] at h
    cases h

theorem rounded_of_not_isFinite (h : x.isFinite = false) : rounded x = x := by
  unfold rounded
  split
  · next negative m e hparts =>
    have hfinite := isFinite_iff_parts.mpr ⟨negative, m, e, hparts⟩
    exact absurd (h.symm.trans hfinite) (by decide)
  · rfl

theorem Binary64.AtLeast.exists_unpack (h : AtLeast k y) : ∃ t n f hn, y.toModel.unpack = .finite t n f hn := by
  rw [AtLeast] at h
  cases hy : y.toModel.unpack with
  | finite t n f hn => exact ⟨t, n, f, hn, rfl⟩
  | _ =>
    rw [hy] at h
    cases h

/-- What is no finite number is none in any part of it, nor zero. -/
theorem not_isFinite_div (h : x.isFinite = false) (hy : AtLeast k y) :
    (x / y).isFinite = false ∧ (x / y == 0) = false := by
  obtain ⟨t, n, f, hn, hunpack⟩ := hy.exists_unpack
  have hquotient : x / y = .ofModel (.pack (Float.Model.UnpackedFloat.div Float.Model.Format.binary64
      x.toModel.unpack y.toModel.unpack)) := rfl
  rcases unpack_of_not_isFinite h with hx | ⟨s, hx⟩
  · rw [hquotient, hx, hunpack]
    show (Float.ofModel (.pack .notANumber)).isFinite = false ∧ (Float.ofModel (.pack .notANumber) == 0) = false
    decide
  · rw [hquotient, hx, hunpack]
    show (Float.ofModel (.pack (.infinity (s / t)))).isFinite = false ∧
      (Float.ofModel (.pack (.infinity (s / t))) == 0) = false
    cases s / t <;> decide

/-- A power of ten from one to ten thousand. -/
structure IsFactor (y : Float) : Prop where
  below : Below 14 y
  atLeast : AtLeast 1 y

theorem isFactor_boardPlaces : IsFactor (power 10 boardPlaces) := by
  constructor <;> decide

theorem isFactor_four : IsFactor (power 10 4) := by
  constructor <;> decide

theorem below_zero (k : Nat) : Below k 0 := by
  have hzero : Below 0 0 := by decide
  exact hzero.mono (Nat.zero_le k)

/-- **Rounding to places** is done within the range of doubles. -/
theorem Binary64.Below.roundTo (hplaces : IsFactor (power 10 places)) (hx : Below k x) (hk : k + 16 ≤ c)
    (hc : 57 ≤ c) (hc' : c ≤ 1024) : Below c (roundTo places x) := by
  have hscaled : Below (c - 1) (x * power 10 places) := hx.mul hplaces.below (by omega) (by omega)
  have hrounded := hscaled.rounded (by omega) (by omega)
  have hquotient : Below c (Binary64.rounded (x * power 10 places) / power 10 places) :=
    hrounded.div hplaces.atLeast (by omega) (by omega) hc'
  unfold EdaParts.roundTo
  dsimp only
  split
  · exact below_zero c
  · exact hquotient

/-- The number is finite, and stays so with its point four places further right. -/
def InReach (x : Float) : Prop := (x * power 10 4).isFinite = true

instance (x : Float) : Decidable (InReach x) := inferInstanceAs (Decidable (_ = _))

theorem Binary64.Below.inReach (hx : Below k x) (hk : k ≤ 1009) : InReach x := by
  have hfactor : Below 14 (power 10 4) := by decide
  exact isFinite_iff_below.mpr (hx.mul hfactor (by omega) (Nat.le_refl _))

theorem isFinite_roundTo_iff : (roundTo 4 x).isFinite = true ↔ InReach x := by
  have hatLeast : AtLeast 14 (power 10 4) := by decide
  rw [InReach]
  unfold roundTo
  dsimp only
  constructor
  · intro h
    by_contra hscaled
    rw [Bool.not_eq_true] at hscaled
    obtain ⟨hquotient, hzero⟩ := not_isFinite_div hscaled hatLeast
    rw [rounded_of_not_isFinite hscaled, if_neg (by rw [hzero]; decide), hquotient] at h
    cases h
  · intro hscaled
    have hrounded := (isFinite_iff_below.mp hscaled).rounded (by decide) (by decide)
    split
    · exact (below_zero 0).isFinite
    · exact Below.isFinite (hrounded.div hatLeast (c := 1012) (by decide) (by decide) (by decide))

/-- **The numbers of library files** are decimals just if they are in reach. -/
theorem isDecimal_numberText_iff : Decimal.IsDecimal (numberText x).toList ↔ InReach x := by
  rw [numberText, Decimal.isDecimal_plain_iff, isFinite_roundTo_iff]

/-- The same in a format that does not know what is no number. -/
theorem isWordOf_numberText_iff {keywords : List String} (h : ∀ w ∈ Decimal.nonNumbers, w ∉ keywords) :
    Decimal.IsWordOf keywords (numberText x) ↔ InReach x := by
  rw [Decimal.IsWordOf, isDecimal_numberText_iff, or_iff_right_iff_imp]
  intro hkeyword
  by_contra hreach
  rw [← isFinite_roundTo_iff, Bool.not_eq_true] at hreach
  exact h _ (Decimal.plain_mem_nonNumbers hreach) hkeyword

end

end EdaParts
