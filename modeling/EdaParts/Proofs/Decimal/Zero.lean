import EdaParts.Proofs.Binary64.Nonzero
import EdaParts.Proofs.Decimal.Finite

/-!
# Lengths that are printed as zero

Only zero is written with the digit zero alone. A length on the board has two places, so that one which is not zero is
large enough to be seen with four; it is zero just if its exact value is nearer to zero than half a hundredth.

* `Decimal.digits_shortest_pos` : other numbers have a digit that is not zero;
* `roundTo_cases` : what rounding makes of numbers far from zero, near to it, and of what is no number;
* `roundTo_pos_iff` : when a length is positive; `numberText_roundTo_eq_zero_iff` : when it is printed as zero.
-/

namespace EdaParts

open Binary64

/-! ## Digits -/

namespace Decimal

section
variable {ties : Ties} {m : Nat} {e p : Int} {d : Scaled}

theorem holds_zero (hm : 0 < m) : holds m e ⟨0, p⟩ = false := by
  have hlow {low : Nat} (hlow : 0 < low) : compareScaled 0 p low (e - 2) = .lt := by
    rw [compareScaled, Nat.zero_mul, Nat.zero_mul, Nat.compare_eq_lt]
    exact Nat.mul_pos (Nat.mul_pos hlow (Nat.two_pow_pos _)) (Nat.pow_pos (by decide))
  have hpos : 0 < if hasNarrowGap m e then 4 * m - 1 else 4 * m - 2 := by
    split <;> omega
  unfold holds
  dsimp only
  rw [hlow hpos]
  split <;> rfl

theorem digits_neighbour?_pos (hm : 0 < m) (h : neighbour? ties m e p = some d) : 0 < d.digits := by
  have hzero := holds_zero (e := e) (p := p) hm
  -- A neighbour without digits would not read back.
  have hdown (hholds : holds m e ⟨gridFloor m e p, p⟩ = true) : 0 < gridFloor m e p := by
    refine Nat.pos_of_ne_zero fun hfloor => ?_
    rw [hfloor, hzero] at hholds
    cases hholds
  unfold neighbour? at h
  dsimp only at h
  split at h
  · next hholds _ =>
    obtain rfl := Option.some.inj h
    split
    · exact hdown hholds
    · exact Nat.succ_pos _
  · next hholds _ =>
    obtain rfl := Option.some.inj h
    exact hdown hholds
  · obtain rfl := Option.some.inj h
    exact Nat.succ_pos _
  · cases h

theorem digits_search_pos (hm : 0 < m) (grids : Nat) : 0 < (search ties m e grids p).digits := by
  induction grids generalizing p with
  | zero => exact Nat.mul_pos (Nat.mul_pos hm (Nat.two_pow_pos _)) (Nat.pow_pos (by decide))
  | succ grids ih =>
    rw [search]
    cases hneighbour : neighbour? ties m e p with
    | none => exact ih
    | some d => exact digits_neighbour?_pos hm hneighbour

theorem digits_stripZeros_pos (fuel : Nat) (hd : 0 < d.digits) : 0 < (stripZeros fuel d).digits := by
  induction fuel generalizing d with
  | zero => exact hd
  | succ fuel ih =>
    rw [stripZeros]
    split
    · next hzero => exact ih (Nat.div_pos (by omega) (by decide))
    · exact hd

/-- **The digits of a number** that is not zero are not all zeros. -/
theorem digits_shortest_pos (hm : 0 < m) : 0 < (shortest ties m e).digits := by
  rw [shortest, if_neg hm.ne']
  exact digits_stripZeros_pos _ (digits_search_pos hm 20)

theorem positional_ne_zero (hd : 0 < d.digits) : positional d ≠ ['0'] := by
  unfold positional
  dsimp only
  split
  · rw [if_neg hd.ne']
    intro h
    rcases List.append_eq_singleton_iff.mp h with ⟨hnil, -⟩ | ⟨hdigits, -⟩
    · exact Nat.toDigits_ne_nil hnil
    · have hvalue : Nat.ofDigitChars 10 (digitChars d.digits) 0 = d.digits := Nat.ofDigitChars_ten_toDigits
      rw [hdigits] at hvalue
      exact hd.ne hvalue
  · intro h
    have hpoint : '.' ∈ ['0'] := h ▸ List.mem_append_right _ List.mem_cons_self
    exact absurd hpoint (by decide)

end

/-- A number that is far from zero on either side is not written as zero. -/
theorem plain_ne_zero {s : Float.Model.UnpackedFloat.Sign} {k : Int} {x : Float} (h : Beyond s k x) :
    plain x ≠ "0" := by
  have hparts := parts_eq x
  rw [Beyond] at h
  intro hzero
  have hchars := congrArg String.toList hzero
  rw [plain, spell, hparts] at hchars
  cases hx : x.toModel.unpack with
  | infinity t => cases t <;> rw [hx] at hchars <;> exact absurd hchars (by decide)
  | finite t m e hm =>
    rw [hx] at hchars
    dsimp only [partsOf] at hchars
    rw [String.toList_ofList] at hchars
    cases t with
    | negative => exact absurd (List.cons.inj hchars).1 (by decide)
    | positive => exact positional_ne_zero (digits_shortest_pos hm) hchars
  | _ =>
    rw [hx] at h
    cases h

theorem plain_of_isNaN {x : Float} (h : x.isNaN = true) : plain x = "NaN" := by
  rw [plain, spell, parts_eq, unpack_of_isNaN h]
  rfl

end Decimal

/-! ## Rounding -/

section
variable {places : Int32} {x : Float} {s : Float.Model.UnpackedFloat.Sign}

/-- A number from one half of the last place on is rounded to one that is far from zero on its side. -/
theorem Binary64.Beyond.roundTo (hplaces : IsFactor (power 10 places)) (hside : Beyond .positive 1 (power 10 places))
    (h : Beyond s 0 (x * power 10 places)) : Beyond s (-13) (roundTo places x) := by
  have hquotient : Beyond s (-13) (Binary64.rounded (x * power 10 places) / power 10 places) := by
    have hdiv := h.rounded.div hside hplaces.below (show (-13 : Int) + (14 : Nat) ≤ 1 by decide) (by decide)
    cases s <;> exact hdiv
  unfold EdaParts.roundTo
  dsimp only
  rw [hquotient.beq_zero]
  exact hquotient

/-- A number nearer to zero is rounded to it. -/
theorem roundTo_eq_zero (hplaces : IsFactor (power 10 places)) (hnumber : IsNumber (x * power 10 places))
    (h : ∀ s, ¬ Beyond s 0 (x * power 10 places)) : roundTo places x = 0 := by
  obtain ⟨t, hzero⟩ := unpack_rounded_eq_zero hnumber h
  obtain ⟨t', n, f, hn, hfactor⟩ := hplaces.atLeast.exists_unpack
  have hquotient : (rounded (x * power 10 places) / power 10 places == 0) = true := by
    have hdiv : rounded (x * power 10 places) / power 10 places = .ofModel (.pack
        (Float.Model.UnpackedFloat.div Float.Model.Format.binary64 (rounded (x * power 10 places)).toModel.unpack
          (power 10 places).toModel.unpack)) := rfl
    rw [hdiv, hzero, hfactor]
    show (Float.ofModel (.pack (.zero (t / t'))) == 0) = true
    cases t / t' <;> decide
  unfold roundTo
  dsimp only
  rw [hquotient]
  rfl

theorem isNaN_roundTo (h : (x * power 10 places).isNaN = true) : (roundTo places x).isNaN = true := by
  have hquotient := isNaN_div (isNaN_rounded h) (power 10 places)
  unfold roundTo
  dsimp only
  split
  · next hzero =>
    have hnumber := isNumber_of_le (beq_iff_le.mp hzero).1
    exact absurd (hquotient.symm.trans hnumber.1) (by decide)
  · exact hquotient

/-- **What rounding makes of a number**: of one far from zero one far from zero, of one near to it zero, and no number
of what is none. -/
theorem roundTo_cases (hplaces : IsFactor (power 10 places)) (hside : Beyond .positive 1 (power 10 places))
    (x : Float) :
    (∃ s, Beyond s 0 (x * power 10 places) ∧ Beyond s (-13) (roundTo places x)) ∨
      (IsNumber (x * power 10 places) ∧ (∀ s, ¬ Beyond s 0 (x * power 10 places)) ∧ roundTo places x = 0) ∨
      (x * power 10 places).isNaN = true ∧ (roundTo places x).isNaN = true := by
  by_cases hbeyond : ∃ s, Beyond s 0 (x * power 10 places)
  · obtain ⟨s, hs⟩ := hbeyond
    exact Or.inl ⟨s, hs, Beyond.roundTo hplaces hside hs⟩
  · rw [not_exists] at hbeyond
    cases hnan : (x * power 10 places).isNaN with
    | false => exact Or.inr (Or.inl ⟨hnan, hbeyond, roundTo_eq_zero hplaces hnan hbeyond⟩)
    | true => exact Or.inr (Or.inr ⟨rfl, isNaN_roundTo hnan⟩)

end

/-! ## Lengths on the board -/

section
variable {x : Float} {s : Float.Model.UnpackedFloat.Sign}

theorem numberText_of_isNaN (h : x.isNaN = true) : numberText x = "NaN" :=
  Decimal.plain_of_isNaN (isNaN_roundTo (isNaN_mul h _))

/-- What is not zero with two places is not zero with four. -/
theorem numberText_ne_zero (h : Beyond s (-13) x) : numberText x ≠ "0" := by
  have hside : Beyond .positive 14 (power 10 4) := by decide
  have hscaled : Beyond s 0 (x * power 10 4) := by
    have hmul := h.mul hside (show (0 : Int) + 1 ≤ -13 + 14 by decide) (by decide)
    cases s <;> exact hmul
  exact Decimal.plain_ne_zero (Beyond.roundTo isFactor_four (hside.mono (show (1 : Int) ≤ 14 by decide)) hscaled)

theorem power_boardPlaces : power 10 boardPlaces = 100 := by
  decide +kernel

/-- A length on the board. -/
theorem roundTo_boardPlaces_cases (x : Float) :
    (∃ s, Beyond s 0 (x * 100) ∧ Beyond s (-13) (roundTo boardPlaces x)) ∨
      (IsNumber (x * 100) ∧ (∀ s, ¬ Beyond s 0 (x * 100)) ∧ roundTo boardPlaces x = 0) ∨
      (x * 100).isNaN = true ∧ (roundTo boardPlaces x).isNaN = true := by
  have hcases := roundTo_cases isFactor_boardPlaces (by decide) x
  rwa [power_boardPlaces] at hcases

/-- **A length is positive** just if it is half a hundredth at least. -/
theorem roundTo_pos_iff : 0 < roundTo boardPlaces x ↔ 1 / 2 ≤ x * 100 := by
  rw [← beyond_positive_iff]
  rcases roundTo_boardPlaces_cases x with ⟨s, hscaled, hrounded⟩ | ⟨-, hnear, hrounded⟩ | ⟨hscaled, hrounded⟩
  · cases s with
    | positive => exact iff_of_true hrounded.pos hscaled
    | negative =>
      exact iff_of_false (not_lt_of_le (le_of_lt hrounded.lt_zero)) fun hside =>
        absurd (hscaled.side_eq hside) (by decide)
  · rw [hrounded]
    exact iff_of_false (by decide) (hnear .positive)
  · rw [beyond_positive_iff]
    refine iff_of_false (fun hpos => ?_) fun hle => ?_
    · exact absurd (hrounded.symm.trans (isNumber_of_le (le_of_lt hpos)).2) (by decide)
    · exact absurd (hscaled.symm.trans (isNumber_of_le hle).2) (by decide)

/-- **A length is printed as zero** just if it is less than half a hundredth on either side. -/
theorem numberText_roundTo_eq_zero_iff :
    numberText (roundTo boardPlaces x) = "0" ↔ -1 / 2 < x * 100 ∧ x * 100 < 1 / 2 := by
  rcases roundTo_boardPlaces_cases x with ⟨s, hscaled, hrounded⟩ | ⟨hnumber, hnear, hrounded⟩ | ⟨hscaled, hrounded⟩
  · refine iff_of_false (numberText_ne_zero hrounded) fun hnear => ?_
    exact (not_beyond_iff (isNumber_of_le (le_of_lt hnear.2)).1).mpr hnear s hscaled
  · rw [hrounded]
    exact iff_of_true (by decide +kernel) ((not_beyond_iff hnumber).mp hnear)
  · rw [numberText_of_isNaN hrounded]
    refine iff_of_false (by decide) fun hnear => ?_
    exact absurd (hscaled.symm.trans (isNumber_of_le (le_of_lt hnear.2)).1) (by decide)

end

end EdaParts
