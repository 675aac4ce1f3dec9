import EdaParts.Checked

/-!
# Calculations that fit

A step that stays within the words gives its exact result.

* `Checked.InWords` : the whole numbers that are words;
* `Checked.Exact` : when a calculation fits, and what it gives then;
* `Checked.Exact.neg` and the lemmas after it : one step more;
* `Binary64.inWords_truncated` : the whole part of a double is a word.
-/

namespace EdaParts

open Binary64 (leastWord greatestWord)

theorem Binary64.leastWord_eq : leastWord = -9223372036854775808 := by decide

theorem Binary64.greatestWord_eq : greatestWord = 9223372036854775807 := by decide

open Binary64 (leastWord_eq greatestWord_eq)

namespace Checked

def InWords (n : Int) : Prop := leastWord ≤ n ∧ n ≤ greatestWord

instance (n : Int) : Decidable (InWords n) := inferInstanceAs (Decidable (_ ∧ _))

/-- Under the condition, and only then, each step of the calculation fits; and then it gives the number. -/
structure Exact (a : Checked) (n : Int) (p : Prop) : Prop where
  fits_iff : a.fits = true ↔ p
  value_eq : p → a.value = n

variable {a b : Checked} {n m : Int} {p q : Prop}

theorem wrapped_of_inWords (h : InWords n) : wrapped n = n := by
  obtain ⟨hleast, hgreatest⟩ := h
  rw [leastWord_eq] at hleast
  rw [greatestWord_eq] at hgreatest
  have hwords : ((Nat.pow 2 64 : Nat) : Int) = 18446744073709551616 := by decide
  apply Int.bmod_eq_of_le <;> omega

theorem Exact.congr (h : Exact a n p) (hpq : p ↔ q) : Exact a n q :=
  ⟨h.fits_iff.trans hpq, fun hq => h.value_eq (hpq.mpr hq)⟩

theorem exact_given (n : Int) : Exact (given n) n True :=
  ⟨iff_of_true rfl trivial, fun _ => rfl⟩

/-- One more step, after steps that give numbers with a certain exact result. -/
theorem exact_ofExact {fits : Bool} (hfits : fits = true ↔ p) (hresult : p → m = n) :
    Exact (ofExact fits m) n (p ∧ InWords n) where
  fits_iff := by
    simp only [ofExact, Bool.and_eq_true, decide_eq_true_iff, hfits, InWords, and_assoc]
    refine and_congr_right fun hp => ?_
    rw [hresult hp]
  value_eq := by
    rintro ⟨hp, hwords⟩
    rw [ofExact, hresult hp]
    exact wrapped_of_inWords hwords

theorem Exact.neg (ha : Exact a n p) : Exact (-a) (-n) (p ∧ InWords (-n)) :=
  exact_ofExact ha.fits_iff fun hp => by rw [ha.value_eq hp]

theorem Exact.and_fits_iff (ha : Exact a n p) (hb : Exact b m q) : (a.fits && b.fits) = true ↔ p ∧ q := by
  rw [Bool.and_eq_true, ha.fits_iff, hb.fits_iff]

theorem Exact.add (ha : Exact a n p) (hb : Exact b m q) : Exact (a + b) (n + m) ((p ∧ q) ∧ InWords (n + m)) :=
  exact_ofExact (ha.and_fits_iff hb) fun h => by rw [ha.value_eq h.1, hb.value_eq h.2]

theorem Exact.sub (ha : Exact a n p) (hb : Exact b m q) : Exact (a - b) (n - m) ((p ∧ q) ∧ InWords (n - m)) :=
  exact_ofExact (ha.and_fits_iff hb) fun h => by rw [ha.value_eq h.1, hb.value_eq h.2]

theorem Exact.mul (ha : Exact a n p) (hb : Exact b m q) : Exact (a * b) (n * m) ((p ∧ q) ∧ InWords (n * m)) :=
  exact_ofExact (ha.and_fits_iff hb) fun h => by rw [ha.value_eq h.1, hb.value_eq h.2]

end Checked

theorem Binary64.inWords_truncated (x : Float) : Checked.InWords (truncated x) := by
  unfold truncated Checked.InWords
  cases parts x with
  | nan => decide
  | infinite negative => cases negative <;> decide
  | finite negative m e =>
    rw [leastWord_eq, greatestWord_eq]
    cases negative <;> simp only [Bool.false_eq_true, if_false, if_true] <;> omega

end EdaParts
