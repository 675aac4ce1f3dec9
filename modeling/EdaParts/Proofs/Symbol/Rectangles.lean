import EdaParts.Proofs.Record.Tokens
import EdaParts.Proofs.Symbol.Words

/-!
# Rectangles with rounded corners

A rectangle has the radii of its corners before its size, or blanks in their place. Blank fields are dropped, and the
radii are told to be there by the number of fields that are left, those of the style behind the size among them. So one
blank field of the style is enough for the radii to be taken for the size.

* `SymbolPlacement.read_sized`, `SymbolPlacement.read_rounded` : records without radii and with them;
* `SymbolPlacement.rectangleLine` : the line of a rectangle;
* `SymbolPlacement.rectangle_drawn_iff` : when it is drawn with its size.
-/

namespace EdaParts

open Record (separator toLine)

namespace SymbolPlacement

variable {frame : Frame} {f : Fields} {p : SymbolPlacement} {line x y rx ry w h : String} {rest style : List String}
  {a b c d : Float}

theorem rectangleOf_eq_iff {r s : Float} :
    rectangleOf frame a b r s = rectangleOf frame a b c d ↔ frame.mils ⟨a + r, b + s⟩ = frame.mils ⟨a + c, b + d⟩ := by
  simp [rectangleOf, single]

/-- A record of any other number of fields than twelve has its size behind the corner. -/
theorem read_sized (hline : Record.ofLine? line = some ⟨"R", x :: y :: w :: h :: rest⟩) (hrest : rest.length ≠ 8)
    (hx : finiteNumber? x.toList = some a) (hy : finiteNumber? y.toList = some b) :
    read frame line = .ok p ↔
      ∃ r s, finiteNumber? w.toList = some r ∧ finiteNumber? h.toList = some s ∧ rectangleOf frame a b r s = p := by
  rw [value_of_record .rect hline]
  show rect frame ⟨"R", x :: y :: w :: h :: rest⟩ = .ok p ↔ _
  simp [rect_eq_ok_iff, Fields.number_eq_ok_iff, Fields.get?, hrest, hx, hy]

/-- A record of twelve fields has its size behind the radii. -/
theorem read_rounded (hline : Record.ofLine? line = some ⟨"R", x :: y :: rx :: ry :: w :: h :: rest⟩)
    (hrest : rest.length = 6) (hx : finiteNumber? x.toList = some a) (hy : finiteNumber? y.toList = some b) :
    read frame line = .ok p ↔
      ∃ r s, finiteNumber? w.toList = some r ∧ finiteNumber? h.toList = some s ∧ rectangleOf frame a b r s = p := by
  rw [value_of_record .rect hline]
  show rect frame ⟨"R", x :: y :: rx :: ry :: w :: h :: rest⟩ = .ok p ↔ _
  simp [rect_eq_ok_iff, Fields.number_eq_ok_iff, Fields.get?, hrest, hx, hy]

/-- The line of a rectangle: corner, radii, size and style. -/
def rectangleLine (x y rx ry w h : String) (style : List String) : String :=
  toLine ⟨"R", [x, y, rx, ry, w, h] ++ style⟩

/-- A number is not blank. -/
theorem ne_empty_of_finiteNumber? {s : String} (h : finiteNumber? s.toList = some a) : s ≠ "" := by
  rintro rfl
  have hnone : finiteNumber? "".toList = none := by decide
  cases hnone.symm.trans h

/-- Blank radii and the blank fields of the style are left out of the record. -/
theorem ofLine?_rectangleLine (hfree : ∀ s ∈ [x, y, rx, ry, w, h] ++ style, separator ∉ s.toList)
    (hx : finiteNumber? x.toList = some a) (hy : finiteNumber? y.toList = some b)
    (hw : finiteNumber? w.toList = some c) (hh : finiteNumber? h.toList = some d) :
    Record.ofLine? (rectangleLine x y rx ry w h style) =
      some ⟨"R", x :: y :: ([rx, ry].filter (!·.isEmpty) ++ w :: h :: style.filter (!·.isEmpty))⟩ := by
  have htag : separator ∉ "R".toList := by decide
  rw [rectangleLine, Record.ofLine?_toLine (by decide) (List.forall_mem_cons.mpr ⟨htag, hfree⟩)]
  have hsplit : [x, y, rx, ry, w, h] ++ style = [x, y] ++ [rx, ry] ++ [w, h] ++ style := rfl
  have hcorner : [x, y].filter (!·.isEmpty) = [x, y] := by
    simp [ne_empty_of_finiteNumber? hx, ne_empty_of_finiteNumber? hy]
  have hsize : [w, h].filter (!·.isEmpty) = [w, h] := by
    simp [ne_empty_of_finiteNumber? hw, ne_empty_of_finiteNumber? hh]
  rw [hsplit, List.filter_append, List.filter_append, List.filter_append, hcorner, hsize]
  simp

/-- A style of six fields keeps all of them just if none is blank. -/
theorem length_filter_style (hstyle : style.length = 6) :
    (style.filter (!·.isEmpty)).length = 6 ↔ "" ∉ style := by
  rw [← hstyle, List.length_filter_eq_length_iff]
  constructor
  · intro h hmem
    simpa using h "" hmem
  · intro h s hs
    have hne : s ≠ "" := fun he => h (he ▸ hs)
    simpa using hne

/-- **When a rectangle is drawn with its size.** Its radii are both given or both left blank. It is drawn from its
corner to the opposite one if the radii are blank, and if no field of the style is; else the radii are taken for
the size. -/
theorem rectangle_drawn_iff (frame : Frame) (rx ry : String) (style : List String)
    (hfree : ∀ s ∈ [x, y, rx, ry, w, h] ++ style, separator ∉ s.toList) (hstyle : style.length = 6)
    (hradii : rx = "" ↔ ry = "")
    (hx : finiteNumber? x.toList = some a) (hy : finiteNumber? y.toList = some b)
    (hw : finiteNumber? w.toList = some c) (hh : finiteNumber? h.toList = some d) :
    (read frame (rectangleLine x y rx ry w h style) = .ok (rectangleOf frame a b c d) ↔
      rx = "" ∨ "" ∉ style ∨ ∃ r s, finiteNumber? rx.toList = some r ∧ finiteNumber? ry.toList = some s ∧
        frame.mils ⟨a + r, b + s⟩ = frame.mils ⟨a + c, b + d⟩) ∧
    (rx ≠ "" → "" ∈ style → ∀ p, read frame (rectangleLine x y rx ry w h style) = .ok p ↔
      ∃ r s, finiteNumber? rx.toList = some r ∧ finiteNumber? ry.toList = some s ∧ rectangleOf frame a b r s = p) := by
  have hline := ofLine?_rectangleLine hfree hx hy hw hh
  have hkept := length_filter_style hstyle
  have hmost := List.length_filter_le (!·.isEmpty) style
  by_cases hbare : rx = ""
  · -- The size follows the corner, and there are too few fields for radii.
    obtain rfl := hbare
    obtain rfl := hradii.mp rfl
    refine ⟨iff_of_true ?_ (.inl rfl), fun h => absurd rfl h⟩
    exact (read_sized hline (by omega) hx hy).mpr ⟨c, d, hw, hh, rfl⟩
  · have hry : ry ≠ "" := fun h => hbare (hradii.mpr h)
    have hboth : [rx, ry].filter (!·.isEmpty) = [rx, ry] := by simp [hbare, hry]
    rw [hboth] at hline
    by_cases hblank : "" ∈ style
    · -- Too few fields are left again, and the radii stand where the size is looked for.
      have hcount : (w :: h :: style.filter (!·.isEmpty)).length ≠ 8 := by
        simpa [hkept] using hblank
      refine ⟨?_, fun _ _ _ => read_sized hline hcount hx hy⟩
      rw [read_sized hline hcount hx hy]
      simp only [rectangleOf_eq_iff, hbare, hblank, not_true_eq_false, false_or]
    · refine ⟨iff_of_true ?_ (.inr (.inl hblank)), fun _ h => absurd h hblank⟩
      exact (read_rounded hline (hkept.mpr hblank) hx hy).mpr ⟨c, d, hw, hh, rfl⟩

/-- A square around the origin, with radii and without, and the radii in its place where the style has a blank. -/
theorem rectangle_drawn_square :
    (read (.schematic ⟨400, 300⟩ 10)
        (rectangleLine "390" "290" "2" "2" "20" "20" ["#880000", "1", "0", "none", "gge2", "0"])).toOption.map
      (·.graphics) = some [.rectangle ⟨-100, 100⟩ ⟨100, -100⟩] ∧
    (read (.schematic ⟨400, 300⟩ 10)
        (rectangleLine "390" "290" "" "" "20" "20" ["#880000", "1", "0", "none", "gge2", "0"])).toOption.map
      (·.graphics) = some [.rectangle ⟨-100, 100⟩ ⟨100, -100⟩] ∧
    (read (.schematic ⟨400, 300⟩ 10)
        (rectangleLine "390" "290" "2" "2" "20" "20" ["#880000", "1", "0", "", "gge2", "0"])).toOption.map
      (·.graphics) = some [.rectangle ⟨-100, 100⟩ ⟨-80, 80⟩] := by
  have hx : finiteNumber? "390".toList = some 390 := by decide +kernel
  have hy : finiteNumber? "290".toList = some 290 := by decide +kernel
  have hr : finiteNumber? "2".toList = some 2 := by decide +kernel
  have hw : finiteNumber? "20".toList = some 20 := by decide +kernel
  obtain ⟨hrounded, -⟩ := rectangle_drawn_iff (.schematic ⟨400, 300⟩ 10) "2" "2"
    ["#880000", "1", "0", "none", "gge2", "0"] (by decide) rfl (by decide) hx hy hw hw
  obtain ⟨hbare, -⟩ := rectangle_drawn_iff (.schematic ⟨400, 300⟩ 10) "" ""
    ["#880000", "1", "0", "none", "gge2", "0"] (by decide) rfl (by decide) hx hy hw hw
  obtain ⟨-, hradii⟩ := rectangle_drawn_iff (.schematic ⟨400, 300⟩ 10) "2" "2"
    ["#880000", "1", "0", "", "gge2", "0"] (by decide) rfl (by decide) hx hy hw hw
  rw [hrounded.mpr (.inr (.inl (by decide))), hbare.mpr (.inl rfl),
    (hradii (by decide) (by decide) _).mpr ⟨2, 2, hr, hr, rfl⟩]
  decide +kernel

/-- A blank fill is enough for the radii to be drawn in place of the size. -/
theorem radii_drawn_blank_fill :
    (read (.schematic .zero 10)
        (rectangleLine "0" "0" "5" "5" "20" "10" ["#880000", "1", "0", "", "gge2", "0"])).toOption.map (·.graphics) =
      some [.rectangle ⟨0, 0⟩ ⟨50, -50⟩] ∧
    (rectangleOf (.schematic .zero 10) 0 0 20 10).graphics = [.rectangle ⟨0, 0⟩ ⟨200, -100⟩] := by
  decide +kernel

end SymbolPlacement

end EdaParts
