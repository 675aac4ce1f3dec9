import EdaParts.Proofs.Symbol.Texts
import EdaParts.Proofs.Symbol.Words

/-!
# Whole numbers of symbols

Whatever the records of a symbol say, its whole numbers are words: a double without a value is cut to zero, one
that is too large to the last word on its side, and a calculation that leaves the words comes out at their other
end.

* `Graphic.integers`, `Symbol.integers` : the whole numbers of a graphic and of a symbol;
* `SymbolPlacement.inWords_of_read` : those of what a line draws are words;
* `Component.inWords_toSymbol` : and so are those of every symbol.
-/

namespace EdaParts

open Binary64 (truncated inWords_truncated leastWord_eq greatestWord_eq)
open Checked Reading

/-- Whatever is calculated is a word. -/
theorem Checked.inWords_wrapped (n : Int) : InWords (wrapped n) := by
  have hwords : ((Nat.pow 2 64 : Nat) : Int) = 18446744073709551616 := by decide
  have hleast : -(((Nat.pow 2 64 : Nat) : Int) / 2) ≤ n.bmod (Nat.pow 2 64) := Int.le_bmod (by decide)
  have hgreatest : n.bmod (Nat.pow 2 64) < (((Nat.pow 2 64 : Nat) : Int) + 1) / 2 := Int.bmod_lt (by decide)
  rw [InWords, leastWord_eq, greatestWord_eq, wrapped]
  omega

/-! ## Graphics -/

def MilPoint.integers (p : MilPoint) : List Int := [p.x, p.y]

theorem MilPoint.inWords_integers_iff {p : MilPoint} :
    (∀ n ∈ p.integers, InWords n) ↔ InWords p.x ∧ InWords p.y := by
  rw [integers, List.forall_mem_cons, List.forall_mem_singleton]

namespace Graphic

/-- The radius, the size or the length that a graphic has. -/
def lengths : Graphic → List Int
  | circle _ radius | arc _ radius _ _ _ => [radius]
  | text _ _ _ size _ => [size]
  | pin p => [p.length]
  | _ => []

/-- The whole numbers of a graphic. -/
def integers (g : Graphic) : List Int :=
  g.points.flatMap MilPoint.integers ++ g.angles ++ g.lengths

end Graphic

theorem Frame.inWords_mils (frame : Frame) (q : Point) : ∀ n ∈ (frame.mils q).integers, InWords n := by
  rw [MilPoint.inWords_integers_iff]
  exact ⟨inWords_truncated _, inWords_wrapped _⟩

namespace SymbolPlacement

variable {frame : Frame} {f : Fields} {p : SymbolPlacement}

theorem inWords_textSize {size : Int} (h : textSize f = .ok size) : InWords size := by
  unfold textSize at h
  obtain ⟨style, -, h⟩ := bind_eq_ok_iff.mp h
  dsimp only at h
  split at h
  · obtain rfl := Except.ok.inj h
    decide
  · split at h
    · obtain rfl := Except.ok.inj h
      exact inWords_truncated _
    · nomatch h

theorem lengths_flush (run : List MilPoint) : (flush run).flatMap Graphic.lengths = [] := by
  unfold flush
  split <;> rfl

theorem lengths_polylinesFrom (run : List MilPoint) (es : List Element) :
    (polylinesFrom frame run es).flatMap Graphic.lengths = [] := by
  induction es generalizing run with
  | nil => exact lengths_flush run
  | cons e es ih =>
    unfold polylinesFrom
    split
    · rw [List.flatMap_append, lengths_flush, ih, List.append_nil]
    · exact ih _

theorem inWords_lengths_curves (es : List Element) :
    ∀ n ∈ (curves frame es).flatMap Graphic.lengths, InWords n := by
  rw [List.forall_mem_flatMap]
  intro g hg
  obtain ⟨e, -, he⟩ := List.mem_filterMap.mp hg
  cases e with
  | move q => nomatch he
  | arc a =>
    obtain rfl := Option.some.inj he
    exact List.forall_mem_singleton.mpr (inWords_truncated _)
  | _ =>
    obtain rfl := Option.some.inj he
    exact List.forall_mem_nil _

theorem inWords_lengths_pin (h : (pin frame f).Yields p) :
    ∀ n ∈ p.graphics.flatMap Graphic.lengths, InWords n := by
  obtain ⟨code, number, x, y, angle, name, elements, drawn, -, -, -, -, -, -, -, -, -, hlength, rfl⟩ := yields_pin h
  refine List.forall_mem_singleton.mpr ?_
  rw [hlength]
  exact inWords_truncated _

theorem inWords_lengths_path (h : (path frame f).Yields p) :
    ∀ n ∈ p.graphics.flatMap Graphic.lengths, InWords n := by
  obtain ⟨text, es, -, -, -, rfl⟩ := yields_path h
  split
  · exact inWords_lengths_curves es
  · show ∀ n ∈ (polylinesFrom frame [] es).flatMap Graphic.lengths, InWords n
    rw [lengths_polylinesFrom]
    exact List.forall_mem_nil _

theorem inWords_lengths {kind : SymbolKind} (h : (ofKind frame kind f).Yields p) :
    ∀ n ∈ p.graphics.flatMap Graphic.lengths, InWords n := by
  cases kind with
  | rect =>
    obtain ⟨x, y, width, height, -, -, -, -, rfl⟩ := rect_eq_ok_iff.mp h
    exact List.forall_mem_nil _
  | ellipse =>
    obtain ⟨x, y, radius, -, -, -, rfl⟩ := ellipse_eq_ok h
    exact List.forall_mem_singleton.mpr (inWords_truncated _)
  | pin => exact inWords_lengths_pin h
  | text =>
    obtain ⟨degrees, x, y, size, shown, hidden, -, -, -, hsize, -, rfl⟩ := text_eq_ok h
    exact List.forall_mem_singleton.mpr (inWords_textSize hsize)
  | polyline =>
    obtain ⟨points, -, rfl⟩ := polyline_eq_ok h
    exact List.forall_mem_nil _
  | polygon =>
    obtain ⟨points, -, rfl⟩ := polygon_eq_ok h
    exact List.forall_mem_nil _
  | path => exact inWords_lengths_path h
  | arc =>
    obtain ⟨text, es, a, -, -, -, rfl⟩ := arc_eq_ok h
    exact List.forall_mem_singleton.mpr (inWords_truncated _)

/-- The whole numbers of graphics are those of their points, their angles and their lengths. -/
theorem mem_integers_iff {gs : List Graphic} {n : Int} : n ∈ gs.flatMap Graphic.integers ↔
    n ∈ (gs.flatMap Graphic.points).flatMap MilPoint.integers ∨ n ∈ gs.flatMap Graphic.angles ∨
      n ∈ gs.flatMap Graphic.lengths := by
  simp only [Graphic.integers, List.mem_flatMap, List.mem_append]
  grind

/-- **What a line draws** has words for its whole numbers. -/
theorem inWords_of_read {line : String} (h : read frame line = .ok p) :
    ∀ n ∈ p.graphics.flatMap Graphic.integers, InWords n := by
  obtain ⟨kind, f, -, hyields⟩ := kindOf?_of_read h
  have hshows := shows_of_yields hyields
  intro n hn
  rcases mem_integers_iff.mp hn with hn | hn | hn
  · obtain ⟨m, hm, hn⟩ := List.mem_flatMap.mp hn
    obtain ⟨q, -, rfl⟩ := List.mem_map.mp ((hshows.points m).mp hm)
    exact frame.inWords_mils q n hn
  · rw [hshows.angles] at hn
    obtain ⟨x, -, rfl⟩ := List.mem_map.mp hn
    exact inWords_wrapped _
  · exact inWords_lengths hyields n hn

end SymbolPlacement

/-! ## Symbols -/

/-- The whole numbers of a symbol, in its fields and graphics. -/
def Symbol.integers (s : Symbol) : List Int :=
  s.fields.flatMap (·.position.integers) ++ s.graphics.flatMap Graphic.integers

namespace Sheet

/-- The whole numbers of a sheet stay words with one more line. -/
theorem inWords_placeRead {frame : Frame} {s : Sheet} (hs : ∀ n ∈ s.graphics.flatMap Graphic.integers, InWords n)
    (line : String) :
    ∀ n ∈ (s.placeRead (SymbolPlacement.read frame line)).graphics.flatMap Graphic.integers, InWords n := by
  cases hread : SymbolPlacement.read frame line with
  | error skip => exact hs
  | ok p =>
    show ∀ n ∈ (s.graphics ++ p.graphics).flatMap Graphic.integers, InWords n
    rw [List.flatMap_append, List.forall_mem_append]
    exact ⟨hs, SymbolPlacement.inWords_of_read hread⟩

theorem inWords_ofLines (frame : Frame) (lines : List String) :
    ∀ n ∈ (ofLines frame lines).value.graphics.flatMap Graphic.integers, InWords n := by
  rw [value_ofLines]
  have hfold (s : Sheet) (hs : ∀ n ∈ s.graphics.flatMap Graphic.integers, InWords n) :
      ∀ n ∈ ((lines.map (SymbolPlacement.read frame)).foldl placeRead s).graphics.flatMap Graphic.integers,
        InWords n := by
    induction lines generalizing s with
    | nil => exact hs
    | cons line lines ih => exact ih _ (inWords_placeRead hs line)
  exact hfold empty (List.forall_mem_nil _)

/-- Fields stand at words, wherever their calculation leads. -/
theorem inWords_fields (s : Sheet) (scale : Float) (size : Extent) (info : ComponentInfo) (footprint : String) :
    ∀ n ∈ (s.finish scale info size footprint).fields.flatMap (·.position.integers), InWords n := by
  have hhidden (line : Nat) : ∀ n ∈ (above (s.places scale size).footprint line).point.integers, InWords n :=
    MilPoint.inWords_integers_iff.mpr ⟨inWords_wrapped _, inWords_wrapped _⟩
  have hreference : ∀ n ∈ (s.places scale size).reference.point.integers, InWords n :=
    MilPoint.inWords_integers_iff.mpr ⟨inWords_wrapped _, inWords_wrapped _⟩
  have hvalue : ∀ n ∈ (s.places scale size).value.point.integers, InWords n :=
    MilPoint.inWords_integers_iff.mpr ⟨inWords_wrapped _, inWords_wrapped _⟩
  rw [List.forall_mem_flatMap]
  simp only [finish, fields, hiddenField, List.forall_mem_cons]
  exact ⟨hreference, hvalue, hhidden 0, hhidden 1, hhidden 2, hhidden 3, hhidden 4, hhidden 5,
    List.forall_mem_nil _⟩

end Sheet

/-- **The whole numbers of a symbol** are words, for every component and all options. -/
theorem Component.inWords_toSymbol {c : Component} {o : Options} {s : Symbol}
    (h : (c.toSymbol o).run.value = .ok s) : ∀ n ∈ s.integers, InWords n := by
  obtain ⟨source, rfl⟩ := eq_drawnSymbol h
  rw [Symbol.integers, List.forall_mem_append]
  exact ⟨Sheet.inWords_fields _ _ _ _ _, Sheet.inWords_ofLines _ _⟩

end EdaParts
