import Mathlib.Data.List.Basic
import EdaParts.Frame

/-!
# What numbers are written with

Every number of a library file, whole or not, is a run of digits, signs, points and the letters of
`NaN` and `inf`, and never an empty one. So it holds no blank, quote, parenthesis or end of a line.

* `IsNumeral` : a text of that kind;
* `isNumeral_numberText`, `isNumeral_toString_nat`, `isNumeral_toString_int` : all that is printed.
-/

namespace EdaParts.Decimal

def isNumeralChar (c : Char) : Bool :=
  c.isDigit || c ∈ ['-', '.', 'N', 'a', 'i', 'n', 'f']

/-- A text that a number may be written as. -/
def IsNumeral (cs : List Char) : Prop :=
  cs ≠ [] ∧ ∀ c ∈ cs, isNumeralChar c = true

instance (cs : List Char) : Decidable (IsNumeral cs) :=
  decidable_of_iff (cs ≠ [] ∧ cs.all isNumeralChar = true) (and_congr_right fun _ => List.all_eq_true)

theorem not_mem_of_isNumeral {c : Char} {cs : List Char} (h : IsNumeral cs)
    (hc : isNumeralChar c = false) : c ∉ cs := by
  intro hmem
  rw [h.2 c hmem] at hc
  cases hc

theorem isNumeral_digitChars (n : Nat) : IsNumeral (digitChars n) := by
  refine ⟨Nat.toDigits_ne_nil, fun c hc => ?_⟩
  have hdigit : c.isDigit = true := Nat.isDigit_of_mem_toDigits (by decide) (by decide) hc
  rw [isNumeralChar, hdigit, Bool.true_or]

theorem isNumeralChar_of_mem_zeros {k : Nat} {c : Char} (hc : c ∈ List.replicate k '0') :
    isNumeralChar c = true := by
  rw [List.eq_of_mem_replicate hc]
  rfl

theorem isNumeral_positional (d : Scaled) : IsNumeral (positional d) := by
  have hdigits := isNumeral_digitChars d.digits
  unfold positional
  dsimp only
  split
  · split
    · decide
    · refine ⟨by simp [hdigits.1], fun c hc => ?_⟩
      rcases List.mem_append.mp hc with hc | hc
      · exact hdigits.2 c hc
      · exact isNumeralChar_of_mem_zeros hc
  · refine ⟨by simp, fun c hc => ?_⟩
    have hpadded : ∀ c ∈ List.replicate ((-d.exponent).toNat + 1 - (digitChars d.digits).length) '0' ++
        digitChars d.digits, isNumeralChar c = true := by
      intro c hc
      rcases List.mem_append.mp hc with hc | hc
      · exact isNumeralChar_of_mem_zeros hc
      · exact hdigits.2 c hc
    rcases List.mem_append.mp hc with hc | hc
    · exact hpadded c (List.mem_of_mem_take hc)
    · rcases List.mem_cons.mp hc with rfl | hc
      · rfl
      · exact hpadded c (List.mem_of_mem_drop hc)

theorem isNumeral_signed {negative : Bool} {cs : List Char} (h : IsNumeral cs) :
    IsNumeral (signed negative cs) := by
  unfold signed
  split
  · refine ⟨by simp, fun c hc => ?_⟩
    rcases List.mem_cons.mp hc with rfl | hc
    · rfl
    · exact h.2 c hc
  · exact h

theorem isNumeral_plain (x : Float) : IsNumeral (plain x).toList := by
  unfold plain spell
  split
  · decide
  · rw [String.toList_ofList]
    exact isNumeral_signed (by decide)
  · rw [String.toList_ofList]
    exact isNumeral_signed (isNumeral_positional _)

theorem isNumeral_numberText (x : Float) : IsNumeral (numberText x).toList :=
  isNumeral_plain _

theorem isNumeral_toString_nat (n : Nat) : IsNumeral (toString n).toList := by
  rw [Nat.toString_eq_ofList_toDigits, String.toList_ofList]
  exact isNumeral_digitChars n

theorem toList_toString_negSucc (n : Nat) :
    (toString (Int.negSucc n)).toList = '-' :: (toString (n + 1)).toList := by
  rw [show toString (Int.negSucc n) = "-" ++ toString (n + 1) from rfl, String.toList_append]
  rfl

theorem isNumeral_toString_int (n : Int) : IsNumeral (toString n).toList := by
  cases n with
  | ofNat n => exact isNumeral_toString_nat n
  | negSucc n =>
    rw [toList_toString_negSucc]
    exact @isNumeral_signed true _ (isNumeral_toString_nat (n + 1))

end EdaParts.Decimal
