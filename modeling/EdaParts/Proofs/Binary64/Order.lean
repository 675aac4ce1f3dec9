import EdaParts.Binary64
import Mathlib.Data.Prod.Lex

/-!
# The order of doubles

Doubles are compared by rank: by the side of zero on which they stand, and there by exponent and
mantissa. Both zeros have one rank, and what is no number has none, so that the numbers are in a total
order and nothing else is in it.

* `rank` : the place of a double among the numbers; `lt_iff`, `le_iff`, `beq_iff` : what compares it;
* `Selects` : an operation that picks the first of two doubles in an order, where only numbers count, as
  `lesser` and `greater` do;
* `Selects.foldl_perm`, `Selects.exists_beq_foldl_map_iff` : what it picks of many.
-/

namespace EdaParts.Binary64

open Float.Model (UnpackedFloat)

variable {x y z : Float}

/-- The double has a value, or is infinite. -/
def IsNumber (x : Float) : Prop := x.isNaN = false

instance : Decidable (IsNumber x) := inferInstanceAs (Decidable (_ = _))

/-! ## Ranks -/

/-- The side of zero, with 2 for what is beyond every number, then exponent and mantissa. They fall as
the number rises on the side below. -/
def rankOf : UnpackedFloat → Option (Int ×ₗ Int ×ₗ Int)
  | .notANumber => none
  | .infinity .negative => some (toLex (-2, toLex (0, 0)))
  | .finite .negative m e _ => some (toLex (-1, toLex (-e, -m)))
  | .zero _ => some (toLex (0, toLex (0, 0)))
  | .finite .positive m e _ => some (toLex (1, toLex (e, m)))
  | .infinity .positive => some (toLex (2, toLex (0, 0)))

def rank (x : Float) : Option (Int ×ₗ Int ×ₗ Int) :=
  rankOf x.toModel.unpack

theorem compare_neg (a b : Int) : compare (-a) (-b) = compare b a := by
  have hanti : StrictAnti (fun n : Int => -n) := fun _ _ h => Int.neg_lt_neg h
  rw [← cmp_eq_compare, ← cmp_eq_compare]
  exact hanti.cmp_map_eq a b

theorem compare_natCast (a b : Nat) : compare (a : Int) (b : Int) = compare a b := by
  have hmono : StrictMono (Nat.cast : Nat → Int) := fun _ _ h => Int.ofNat_lt.mpr h
  rw [← cmp_eq_compare, ← cmp_eq_compare]
  exact hmono.cmp_map_eq a b

theorem compare_eq (a b : UnpackedFloat) :
    a.compare b = (rankOf a).bind fun r => (rankOf b).map (compare r) := by
  have hswap (i j : Int) (m n : Nat) :
      ((compare i j).then (compare m n)).swap = (compare j i).then (compare n m) := by
    rw [Ordering.swap_then, ← Std.OrientedCmp.eq_swap, ← Std.OrientedCmp.eq_swap]
  -- On two sides of zero the sides decide; on one side exponent and mantissa do.
  rcases a with (_ | _) | _ | _ | ⟨_ | _, m, e, -⟩ <;>
    rcases b with (_ | _) | _ | _ | ⟨_ | _, n, d, -⟩ <;>
    dsimp only [rankOf, UnpackedFloat.compare] <;>
    simp [Prod.Lex.compare_def, compareLex, compareOn, compare_natCast, compare_neg, hswap] <;> rfl

theorem isNumber_iff : IsNumber x ↔ ∃ r, rank x = some r := by
  have h : x.isNaN = (rank x).isNone := by
    show x.toModel.unpack.isNaN = (rankOf x.toModel.unpack).isNone
    rcases x.toModel.unpack with (_ | _) | _ | _ | ⟨_ | _, m, e, -⟩ <;> rfl
  rw [IsNumber, h, Option.isNone_eq_false_iff, Option.isSome_iff_exists]

theorem isNumber_of_isFinite (h : x.isFinite = true) : IsNumber x := by
  have hfinite : x.isFinite = x.toModel.unpack.isFinite := rfl
  have hnan : x.isNaN = x.toModel.unpack.isNaN := rfl
  rw [hfinite] at h
  rw [IsNumber, hnan]
  cases hx : x.toModel.unpack with
  | notANumber =>
    rw [hx] at h
    cases h
  | _ => rfl

theorem lt_iff : x < y ↔ ∃ r s, rank x = some r ∧ rank y = some s ∧ r < s := by
  have h : x < y ↔ x.toModel.unpack.lt y.toModel.unpack = true := decide_eq_true_iff
  rw [h, UnpackedFloat.lt, compare_eq]
  cases hx : rankOf x.toModel.unpack <;> cases hy : rankOf y.toModel.unpack <;>
    simp [rank, hx, hy, compare_lt_iff_lt]

theorem le_iff : x ≤ y ↔ ∃ r s, rank x = some r ∧ rank y = some s ∧ r ≤ s := by
  have h : x ≤ y ↔ x.toModel.unpack.le y.toModel.unpack = true := decide_eq_true_iff
  rw [h, UnpackedFloat.le, compare_eq]
  cases hx : rankOf x.toModel.unpack <;> cases hy : rankOf y.toModel.unpack <;>
    simp [rank, hx, hy, ← Ordering.isLE_iff_ne_gt, ← compare_le_iff_le]

theorem beq_iff : (x == y) = true ↔ ∃ r, rank x = some r ∧ rank y = some r := by
  have h : (x == y) = (x.toModel.unpack.compare y.toModel.unpack == some .eq) := rfl
  rw [h, compare_eq]
  cases hx : rankOf x.toModel.unpack with
  | none => simp [rank, hx]
  | some r =>
    cases hy : rankOf y.toModel.unpack with
    | none => simp [rank, hy]
    | some s => simpa [rank, hx, hy] using compare_eq_iff_eq.trans eq_comm

/-! ## The order of numbers -/

theorem IsNumber.le_refl (hx : IsNumber x) : x ≤ x := by
  obtain ⟨r, hr⟩ := isNumber_iff.mp hx
  exact le_iff.mpr ⟨r, r, hr, hr, le_rfl⟩

theorem IsNumber.le_of_not_lt (hx : IsNumber x) (hy : IsNumber y) (h : ¬ x < y) : y ≤ x := by
  obtain ⟨r, hr⟩ := isNumber_iff.mp hx
  obtain ⟨s, hs⟩ := isNumber_iff.mp hy
  have hle : s ≤ r := not_lt.mp fun hlt => h (lt_iff.mpr ⟨r, s, hr, hs, hlt⟩)
  exact le_iff.mpr ⟨s, r, hs, hr, hle⟩

/-- Nothing but numbers is in the order. -/
theorem isNumber_of_le (h : x ≤ y) : IsNumber x ∧ IsNumber y := by
  obtain ⟨r, s, hr, hs, -⟩ := le_iff.mp h
  exact ⟨isNumber_iff.mpr ⟨r, hr⟩, isNumber_iff.mpr ⟨s, hs⟩⟩

theorem not_lt_of_le (h : x ≤ y) : ¬ y < x := by
  intro hlt
  obtain ⟨r, s, hr, hs, hle⟩ := le_iff.mp h
  obtain ⟨s', r', hs', hr', hlt⟩ := lt_iff.mp hlt
  obtain rfl : s = s' := Option.some.inj (hs.symm.trans hs')
  obtain rfl : r = r' := Option.some.inj (hr.symm.trans hr')
  exact absurd hle (not_le.mpr hlt)

theorem le_of_lt (h : x < y) : x ≤ y := by
  obtain ⟨r, s, hr, hs, hlt⟩ := lt_iff.mp h
  exact le_iff.mpr ⟨r, s, hr, hs, hlt.le⟩

theorem le_trans (hxy : x ≤ y) (hyz : y ≤ z) : x ≤ z := by
  obtain ⟨r, s, hr, hs, hrs⟩ := le_iff.mp hxy
  obtain ⟨s', t, hs', ht, hst⟩ := le_iff.mp hyz
  obtain rfl : s = s' := Option.some.inj (hs.symm.trans hs')
  exact le_iff.mpr ⟨r, t, hr, ht, hrs.trans hst⟩

theorem beq_iff_le : (x == y) = true ↔ x ≤ y ∧ y ≤ x := by
  rw [beq_iff]
  constructor
  · rintro ⟨r, hr, hs⟩
    exact ⟨le_iff.mpr ⟨r, r, hr, hs, le_rfl⟩, le_iff.mpr ⟨r, r, hs, hr, le_rfl⟩⟩
  · rintro ⟨hxy, hyx⟩
    obtain ⟨r, s, hr, hs, hrs⟩ := le_iff.mp hxy
    obtain ⟨s', r', hs', hr', hsr⟩ := le_iff.mp hyx
    obtain rfl : s = s' := Option.some.inj (hs.symm.trans hs')
    obtain rfl : r = r' := Option.some.inj (hr.symm.trans hr')
    exact ⟨r, hr, (le_antisymm hrs hsr) ▸ hs⟩

/-! ## The first of two and of many -/

/-- The operation picks of two doubles the one that comes first in an order of the numbers, where one that
is no number does not count. -/
structure Selects (before : Float → Float → Prop) (pick : Float → Float → Float) : Prop where
  refl {a : Float} : IsNumber a → before a a
  trans {a b c : Float} : before a b → before b c → before a c
  beq_iff {a b : Float} : (a == b) = true ↔ before a b ∧ before b a
  left {a : Float} (b : Float) : IsNumber a → before (pick a b) a
  right {a b : Float} : IsNumber a → IsNumber b → before (pick a b) b
  choice (a b : Float) : pick a b = a ∨ IsNumber b ∧ pick a b = b

/-- So does keeping the first if the second is no number or comes strictly after it. -/
theorem selects_ite {before ahead : Float → Float → Prop} [DecidableRel ahead]
    (refl : ∀ {a}, IsNumber a → before a a) (trans : ∀ {a b c}, before a b → before b c → before a c)
    (beq_iff : ∀ {a b : Float}, (a == b) = true ↔ before a b ∧ before b a)
    (of_ahead : ∀ {a b}, ahead a b → before a b)
    (of_not_ahead : ∀ {a b}, IsNumber a → IsNumber b → ¬ ahead a b → before b a) :
    Selects before fun a b => if b.isNaN || ahead a b then a else b where
  refl := refl
  trans := trans
  beq_iff := beq_iff
  left {a} b ha := by
    split
    · exact refl ha
    · next h =>
      rw [Bool.or_eq_true, not_or, decide_eq_true_iff, Bool.not_eq_true] at h
      exact of_not_ahead ha h.1 h.2
  right {a b} ha hb := by
    split
    · next h =>
      rw [Bool.or_eq_true, decide_eq_true_iff, hb] at h
      exact of_ahead (h.resolve_left Bool.false_ne_true)
    · exact refl hb
  choice a b := by
    split
    · exact Or.inl rfl
    · next h =>
      rw [Bool.or_eq_true, not_or, Bool.not_eq_true] at h
      exact Or.inr ⟨h.1, rfl⟩

theorem selects_lesser : Selects (· ≤ ·) lesser :=
  selects_ite IsNumber.le_refl le_trans beq_iff_le le_of_lt IsNumber.le_of_not_lt

theorem selects_greater : Selects (· ≥ ·) greater :=
  selects_ite IsNumber.le_refl (fun hab hbc => le_trans hbc hab) (beq_iff_le.trans and_comm) le_of_lt
    (fun ha hb => IsNumber.le_of_not_lt hb ha)

namespace Selects

variable {before : Float → Float → Prop} {pick : Float → Float → Float} (h : Selects before pick)
  {a : Float} {xs ys : List Float}
include h

theorem isNumber (ha : IsNumber a) (b : Float) : IsNumber (pick a b) := by
  rcases h.choice a b with hpick | ⟨hb, hpick⟩
  · rwa [hpick]
  · rwa [hpick]

theorem isNumber_foldl (ha : IsNumber a) (xs : List Float) : IsNumber (xs.foldl pick a) := by
  induction xs generalizing a with
  | nil => exact ha
  | cons x xs ih => exact ih (h.isNumber ha x)

theorem foldl_before_start (ha : IsNumber a) (xs : List Float) : before (xs.foldl pick a) a := by
  induction xs generalizing a with
  | nil => exact h.refl ha
  | cons x xs ih => exact h.trans (ih (h.isNumber ha x)) (h.left x ha)

theorem foldl_before (ha : IsNumber a) {x : Float} (hx : IsNumber x) (hmem : x ∈ xs) :
    before (xs.foldl pick a) x := by
  induction xs generalizing a with
  | nil => cases hmem
  | cons y xs ih =>
    rcases List.mem_cons.mp hmem with rfl | hmem
    · exact h.trans (h.foldl_before_start (h.isNumber ha x) xs) (h.right ha hx)
    · exact ih (h.isNumber ha y) hmem

/-- What is picked is where the picking starts, or one of the numbers that it goes through. -/
theorem foldl_choice (a : Float) (xs : List Float) :
    xs.foldl pick a = a ∨ ∃ x ∈ xs, IsNumber x ∧ xs.foldl pick a = x := by
  induction xs generalizing a with
  | nil => exact Or.inl rfl
  | cons y xs ih =>
    rw [List.foldl_cons]
    rcases ih (pick a y) with hfold | ⟨x, hx, hfold⟩
    · rw [hfold]
      rcases h.choice a y with hpick | ⟨hy, hpick⟩
      · exact Or.inl hpick
      · exact Or.inr ⟨y, List.mem_cons_self, hy, hpick⟩
    · exact Or.inr ⟨x, List.mem_cons_of_mem y hx, hfold⟩

/-- **The order of the numbers does not matter** to what is picked of them. -/
theorem foldl_perm (ha : IsNumber a) (hperm : xs.Perm ys) :
    (xs.foldl pick a == ys.foldl pick a) = true := by
  -- The second result is the start or one of the numbers, and the first comes before all of these.
  have hbefore {xs ys : List Float} (hperm : xs.Perm ys) :
      before (xs.foldl pick a) (ys.foldl pick a) := by
    rcases h.foldl_choice a ys with hfold | ⟨y, hy, hnumber, hfold⟩
    · rw [hfold]
      exact h.foldl_before_start ha xs
    · rw [hfold]
      exact h.foldl_before ha hnumber (hperm.mem_iff.mpr hy)
  exact h.beq_iff.mpr ⟨hbefore hperm, hbefore hperm.symm⟩

/-- What is picked of numbers is one of them just if one of them does not come after the start. -/
theorem exists_beq_foldl_map_iff {α : Type} (ha : IsNumber a) (value : α → Float) {items : List α}
    (hvalue : ∀ i ∈ items, IsNumber (value i)) :
    (∃ i ∈ items, (value i == (items.map value).foldl pick a) = true) ↔
      ∃ i ∈ items, before (value i) a := by
  constructor
  · rintro ⟨i, hi, heq⟩
    exact ⟨i, hi, h.trans (h.beq_iff.mp heq).1 (h.foldl_before_start ha _)⟩
  · rintro ⟨i, hi, hstart⟩
    rcases h.foldl_choice a (items.map value) with hfold | ⟨x, hx, hnumber, hfold⟩
    · have hbefore := h.foldl_before ha (hvalue i hi) (List.mem_map_of_mem hi)
      refine ⟨i, hi, h.beq_iff.mpr ⟨?_, hbefore⟩⟩
      rwa [hfold]
    · obtain ⟨j, hj, rfl⟩ := List.mem_map.mp hx
      refine ⟨j, hj, ?_⟩
      rw [hfold]
      exact h.beq_iff.mpr ⟨h.refl hnumber, h.refl hnumber⟩

end Selects

end EdaParts.Binary64
