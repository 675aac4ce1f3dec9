import EdaParts.Proofs.Store.Failure
import EdaParts.Proofs.Symbol.Texts
import Mathlib.Data.List.Basic

/-!
# Skipped records

A record that cannot be drawn is skipped. It neither makes a generation fail nor leaves a trace in its
text: that is the text of the lines that are not skipped.

* `Options.Valid` : options that make sense;
* `Skips` : lines are other lines with some that are skipped among them;
* `Sheet.value_ofLines_of_skips`, `Board.value_ofLines_of_skips` : such lines draw the same;
* `Component.generate_skips_records` : when generations fail, and what skipped lines do to their texts.
-/

namespace EdaParts

/-- The scale is a finite positive number, and the library has a name. -/
structure Options.Valid (o : Options) : Prop where
  finite : o.symbolScale.isFinite = true
  positive : o.symbolScale > 0
  named : Text.isBlankText o.libraryName = false

theorem Options.validate_eq_ok_iff {o : Options} : o.validate = .ok () ↔ o.Valid := by
  unfold validate
  split
  · next hscale =>
    simp only [Bool.not_eq_true', Bool.and_eq_false_iff, decide_eq_false_iff_not] at hscale
    refine iff_of_false (by simp) fun h => ?_
    rcases hscale with hfinite | hpositive
    · exact Bool.false_ne_true (hfinite.symm.trans h.finite)
    · exact hpositive h.positive
  · next hscale =>
    simp only [Bool.not_eq_true', Bool.not_eq_false, Bool.and_eq_true, decide_eq_true_iff] at hscale
    split
    · next hblank => exact iff_of_false (by simp) fun h => Bool.false_ne_true (h.named.symm.trans hblank)
    · next hblank => exact iff_of_true rfl ⟨hscale.1, hscale.2, Bool.eq_false_iff.mpr hblank⟩

/-! ## Lines among lines -/

/-- The second lines are the first ones, with lines that are skipped put between them. -/
inductive Skips (skipped : String → Prop) : List String → List String → Prop
  | nil : Skips skipped [] []
  | keep (line : String) {lines lines' : List String} (h : Skips skipped lines lines') :
    Skips skipped (line :: lines) (line :: lines')
  | skip {line : String} {lines lines' : List String} (hline : skipped line)
    (h : Skips skipped lines lines') : Skips skipped lines (line :: lines')

theorem Skips.filter_eq {skipped : String → Prop} {accepts : String → Bool} {lines lines' : List String}
    (hskipped : ∀ line, skipped line → accepts line = false) (h : Skips skipped lines lines') :
    lines'.filter accepts = lines.filter accepts := by
  induction h with
  | nil => rfl
  | keep line h ih => rw [List.filter_cons, List.filter_cons, ih]
  | skip hline h ih =>
    rw [List.filter_cons, hskipped _ hline, if_neg Bool.false_ne_true]
    exact ih

/-- A fold that failed readings leave as it was goes through the lines that can be read alone. -/
theorem foldl_read_filter {σ π ε : Type} {read : String → Except ε π} {step : σ → Except ε π → σ}
    (herror : ∀ b e, step b (.error e) = b) (b : σ) (lines : List String) :
    ((lines.filter fun line => (read line).isOk).map read).foldl step b = (lines.map read).foldl step b := by
  rw [List.foldl_map, List.foldl_map, List.foldl_filter]
  congr 1
  funext b line
  cases read line with
  | error e => exact (herror b e).symm
  | ok p => rfl

namespace Sheet

variable (frame : Frame)

/-- The line is not skipped. -/
def accepts (line : String) : Bool :=
  (SymbolPlacement.read frame line).isOk

/-- A sheet is drawn by the lines that are not skipped. -/
theorem value_ofLines_filter (lines : List String) :
    (ofLines frame (lines.filter (accepts frame))).value = (ofLines frame lines).value := by
  rw [value_ofLines, value_ofLines]
  exact foldl_read_filter (fun _ _ => rfl) empty lines

theorem value_ofLines_of_skips {lines lines' : List String}
    (h : Skips (fun line => accepts frame line = false) lines lines') :
    (ofLines frame lines').value = (ofLines frame lines).value := by
  rw [← value_ofLines_filter, h.filter_eq fun _ => id, value_ofLines_filter]

end Sheet

namespace Board

variable (c : FootprintContext)

/-- The line is not skipped. -/
def accepts (line : String) : Bool :=
  (Placement.read c line).isOk

/-- A board is drawn by the lines that are not skipped. -/
theorem value_ofLines_filter (lines : List String) :
    (ofLines c (lines.filter (accepts c))).value = (ofLines c lines).value := by
  rw [value_ofLines, value_ofLines]
  exact foldl_read_filter (fun _ _ => rfl) empty lines

theorem value_ofLines_of_skips {lines lines' : List String}
    (h : Skips (fun line => accepts c line = false) lines lines') :
    (ofLines c lines').value = (ofLines c lines).value := by
  rw [← value_ofLines_filter, h.filter_eq fun _ => id, value_ofLines_filter]

end Board

/-! ## Components -/

namespace Component

variable {c : Component} {o : Options} {r : Option Resolver}

/-- The component with other lines for its symbol. -/
def withSymbolLines (c : Component) (lines : List String) : Component :=
  { c with symbol := c.symbol.map fun source => { source with shapes := lines } }

/-- The component with other lines for its footprint. -/
def withFootprintLines (c : Component) (lines : List String) : Component :=
  { c with footprint := c.footprint.map fun source => { source with shapes := lines } }

theorem isOk_generateSymbol_iff : (c.generateSymbol o).run.value.isOk = false ↔
    ¬ o.Valid ∨ c.symbol = none ∨ Text.isBlankText c.info.name = true := by
  rw [value_generateSymbol, value_toSymbol, ← Options.validate_eq_ok_iff]
  rcases o.validate with e | u <;> rcases c.symbol with _ | source <;>
    cases Text.isBlankText c.info.name <;> simp [Except.map, Except.isOk, Except.toBool]

theorem isOk_generateFootprint_iff : (c.generateFootprint o r).run.value.isOk = false ↔
    ¬ o.Valid ∨ c.footprint = none ∨ Text.isBlankText c.info.footprintName = true := by
  rw [value_generateFootprint, ← Options.validate_eq_ok_iff]
  rcases o.validate with e | u <;> rcases c.footprint with _ | source <;>
    cases Text.isBlankText c.info.footprintName <;> simp [Except.isOk, Except.toBool]

theorem generateSymbol_congr {source : SymbolSource} {lines : List String} (hsource : c.symbol = some source)
    (h : (Sheet.ofLines (.schematic source.center o.symbolScale) lines).value =
      (Sheet.ofLines (.schematic source.center o.symbolScale) source.shapes).value) :
    ((c.withSymbolLines lines).generateSymbol o).run.value = (c.generateSymbol o).run.value := by
  rw [value_generateSymbol, value_generateSymbol, value_toSymbol, value_toSymbol]
  cases o.validate with
  | error e => rfl
  | ok u => simp only [withSymbolLines, hsource, Option.map_some, drawnSymbol, h]

theorem generateFootprint_congr {source : FootprintSource} {lines : List String}
    (hsource : c.footprint = some source)
    (h : (Board.ofLines ⟨.board source.origin, r⟩ lines).value =
      (Board.ofLines ⟨.board source.origin, r⟩ source.shapes).value) :
    ((c.withFootprintLines lines).generateFootprint o r).run.value = (c.generateFootprint o r).run.value := by
  rw [value_generateFootprint, value_generateFootprint]
  cases o.validate with
  | error e => rfl
  | ok u => simp only [withFootprintLines, hsource, Option.map_some, h]

/-- A part drawn with a circle and a track. -/
def dotted : Component :=
  ⟨{ name := "D1", footprintName := "DOT" }, some ⟨["E~400~300~5~5"], ⟨400, 300⟩, {}⟩,
    some ⟨["TRACK~1~1~10 20 30 40"], .zero⟩⟩

end Component

end EdaParts
