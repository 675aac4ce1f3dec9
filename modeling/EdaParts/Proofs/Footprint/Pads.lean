import EdaParts.Proofs.Decimal.Zero
import EdaParts.Proofs.Footprint.Agreement
import EdaParts.Proofs.Footprint.Range
import EdaParts.Proofs.Record.Vertices

/-!
# Pads that can be made

A drilled pad needs a hole of some size, and a custom pad an outline. A record is drilled by the radius that it gives,
but the hole is drawn with two places, and vertices are counted only after they are read; so a record may be read as a
pad that cannot be made, and both formats show it.

* `Pad.HoleIsOpen`, `Pad.HasItsOutline` : what a pad needs;
* `Frame.hundredths` : a length before it is rounded;
* `Placement.IsPadOf.holeIsOpen_iff`, `Placement.IsPadOf.hasItsOutline_iff` : when the pad of a record has it;
* `Placement.pad_can_be_made_iff` : so for each record that is read, and for what is printed of it.
-/

namespace EdaParts

open Binary64

/-! ## What a pad needs -/

namespace Pad

/-- No side of the hole is zero or less. -/
def HoleIsOpen (p : Pad) : Prop := ∀ d, p.drill = some d → ∀ x ∈ d.numbers, 0 < x

/-- A custom pad has an outline, and no other pad has one. -/
def HasItsOutline (p : Pad) : Prop := p.outline ≠ [] ↔ p.shape = .custom

end Pad

namespace Modern

/-- The sides of a hole that is read. -/
def DrillForm.sides : DrillForm → List String
  | round diameter => [diameter]
  | slot width height => [width, height]

/-- The pad is shown with a hole, one side of which is zero. -/
def PadForm.ShowsNoHole (p : PadForm) : Prop := ∃ d, p.drill = some d ∧ "0" ∈ d.sides

/-- The pad is shown as a custom one, without an outline. -/
def PadForm.ShowsNoOutline (p : PadForm) : Prop := p.shape = .custom ∧ p.outline = []

end Modern

namespace Legacy

/-- The sides of a hole that is read. -/
def DrillForm.sides : DrillForm → List String
  | ⟨diameter, none⟩ => [diameter]
  | ⟨_, some (width, height)⟩ => [width, height]

/-- The pad is shown as one that goes through the board, with a hole one side of which is zero. -/
def PadForm.ShowsNoHole (p : PadForm) : Prop := p.mounting = .throughHole ∧ "0" ∈ p.drill.sides

end Legacy

/-! ## Lengths -/

namespace Frame

variable {f : Frame} {x : Float}

/-- A length in hundredths, before it is rounded. -/
def hundredths (f : Frame) (x : Float) : Float := x * f.scale * 100

theorem length_pos_iff : 0 < f.length x ↔ 1 / 2 ≤ f.hundredths x := roundTo_pos_iff

theorem numberText_length_eq_zero_iff :
    numberText (f.length x) = "0" ↔ -1 / 2 < f.hundredths x ∧ f.hundredths x < 1 / 2 :=
  numberText_roundTo_eq_zero_iff

theorem numberText_length_ne_zero (h : 0 < f.length x) : numberText (f.length x) ≠ "0" := by
  rw [Ne, numberText_length_eq_zero_iff]
  exact fun hnear => not_lt_of_le (length_pos_iff.mp h) hnear.2

end Frame

/-! ## What is shown of a pad -/

theorem Drill.sides_form (d : Drill) : d.form.sides = d.numbers.map numberText := by
  cases d <;> rfl

theorem Drill.sides_lineForm (d : Drill) : (Drill.lineForm (some d)).sides = d.numbers.map numberText := by
  cases d <;> rfl

namespace Pad

variable {p : Pad}

/-- A side of the hole is printed as zero. -/
def HasZeroSide (p : Pad) : Prop := ∃ d, p.drill = some d ∧ ∃ x ∈ d.numbers, numberText x = "0"

theorem showsNoHole_form_iff : p.form.ShowsNoHole ↔ p.HasZeroSide := by
  have hdrill : p.form.drill = p.drill.map Drill.form := rfl
  rw [Modern.PadForm.ShowsNoHole, HasZeroSide, hdrill]
  cases p.drill <;> simp [Drill.sides_form]

theorem showsNoHole_lineForm_iff (hdrilled : p.mounting = .throughHole ↔ p.drill.isSome = true) :
    p.lineForm.ShowsNoHole ↔ p.HasZeroSide := by
  have hform : p.lineForm.ShowsNoHole ↔ p.mounting = .throughHole ∧ "0" ∈ (Drill.lineForm p.drill).sides := Iff.rfl
  rw [hform, HasZeroSide, hdrilled]
  cases p.drill <;> simp [Drill.sides_lineForm]

theorem showsNoOutline_form_iff (hother : p.shape ≠ .custom → p.outline = []) :
    p.form.ShowsNoOutline ↔ ¬ p.HasItsOutline := by
  have hform : p.form.ShowsNoOutline ↔
      p.shape = .custom ∧ (if p.shape = .custom then p.outline.map Point.printed else []) = [] := Iff.rfl
  rw [hform, HasItsOutline]
  by_cases hshape : p.shape = .custom
  · simp [hshape]
  · simp [hshape, hother hshape]

end Pad

/-! ## The pad of a record -/

/-- A field has a vertex just if it has two words. -/
theorem Fields.points_ne_nil_iff {f : Fields} {i : Nat} {vertices : List Point} (h : f.points i = .ok vertices) :
    vertices ≠ [] ↔ 2 ≤ (Text.words ((f.get? i).getD "").toList).length := by
  obtain ⟨s, hs, -⟩ := bind_eq_ok_iff.mp h
  have hpoints := points_eq (text_eq_ok_iff.mp hs)
  rw [h] at hpoints
  split at hpoints
  · cases hpoints
  · obtain rfl := Except.ok.inj hpoints
    rw [text_eq_ok_iff.mp hs, Option.getD_some, ← List.length_pos_iff, vertexList, List.length_ofFn]
    omega

namespace Placement

open Reading

variable {c : FootprintContext} {f : Fields} {drawn : Pad} {hole : Float}

/-- A hole is as wide as its diameter, and a slot longer than nothing. -/
theorem numbers_padDrill {d : Drill} (h : padDrill c f hole = .ok d) :
    d.numbers = [c.frame.length (hole * 2)] ∨
      ∃ x, 0 < c.frame.length x ∧ d.numbers = [c.frame.length x, c.frame.length (hole * 2)] := by
  obtain ⟨slot, -, h⟩ := bind_eq_ok_iff.mp h
  obtain rfl := Except.ok.inj h
  cases slot with
  | none =>
    have hzero : ¬ (0 : Float) > 0 := by decide
    dsimp only
    rw [decide_eq_false hzero, Bool.false_and, if_neg Bool.false_ne_true]
    exact Or.inl rfl
  | some x =>
    dsimp only
    split
    · next hslot =>
      rw [Bool.and_eq_true, decide_eq_true_iff] at hslot
      exact Or.inr ⟨x, hslot.1, rfl⟩
    · exact Or.inl rfl

theorem yields_padShape_custom_iff {code : String} {shape : PadShape} (h : (padShape code).Yields shape) :
    shape = .custom ↔ code = "POLYGON" := by
  unfold padShape at h
  split at h
  case h_5 hpolygon =>
    obtain ⟨-, -, h⟩ := yields_bind.mp h
    obtain rfl := yields_pure.mp h
    exact iff_of_false (by decide) hpolygon
  all_goals
    obtain rfl := yields_pure.mp h
    decide

namespace IsPadOf

variable (h : IsPadOf c f drawn)
include h

theorem custom_iff : drawn.shape = .custom ↔ f.get? 0 = some "POLYGON" := by
  obtain ⟨code, hcode, hshape⟩ := h.shape
  rw [yields_padShape_custom_iff hshape, Fields.text_eq_ok_iff.mp hcode, Option.some.injEq]

theorem outline_eq_nil (hshape : drawn.shape ≠ .custom) : drawn.outline = [] := by
  have houtline := h.outline
  rwa [if_neg hshape] at houtline

/-- **A custom pad has its outline** just if the record has two words for it. -/
theorem hasItsOutline_iff : drawn.HasItsOutline ↔
    (f.get? 0 = some "POLYGON" → 2 ≤ (Text.words ((f.get? 8).getD "").toList).length) := by
  rw [← h.custom_iff, Pad.HasItsOutline]
  by_cases hshape : drawn.shape = .custom
  · have houtline := h.outline
    rw [if_pos hshape, padOutline] at houtline
    obtain ⟨vertices, hvertices, houtline⟩ := bind_eq_ok_iff.mp houtline
    obtain houtline := Except.ok.inj houtline
    rw [← houtline, Ne, List.map_eq_nil_iff, ← Ne, Fields.points_ne_nil_iff hvertices]
    simp [hshape]
  · simp [hshape, h.outline_eq_nil hshape]

variable (hhole : f.number 7 = .ok hole)
include hhole

theorem throughHole_iff : drawn.mounting = .throughHole ↔ 0 < hole := by
  obtain ⟨hole', hnumber, hmounting, -⟩ := h.hole
  obtain rfl := Except.ok.inj (hhole.symm.trans hnumber)
  rw [hmounting]
  split <;> simp_all

/-- The hole of a pad is drilled with its diameter, and possibly longer. -/
theorem numbers_drill {d : Drill} (hdrill : drawn.drill = some d) :
    0 < hole ∧ (d.numbers = [c.frame.length (hole * 2)] ∨
      ∃ x, 0 < c.frame.length x ∧ d.numbers = [c.frame.length x, c.frame.length (hole * 2)]) := by
  obtain ⟨hole', hnumber, -, -, hread⟩ := h.hole
  obtain rfl := Except.ok.inj (hhole.symm.trans hnumber)
  split at hread
  · next hpos =>
    obtain ⟨d', hd, hsome⟩ := hread
    obtain rfl := Option.some.inj (hdrill.symm.trans hsome)
    exact ⟨hpos, numbers_padDrill hd⟩
  · cases hdrill.symm.trans hread

theorem isSome_drill_iff : drawn.drill.isSome = true ↔ 0 < hole := by
  obtain ⟨hole', hnumber, -, -, hread⟩ := h.hole
  obtain rfl := Except.ok.inj (hhole.symm.trans hnumber)
  split at hread
  · next hpos =>
    obtain ⟨d, -, hsome⟩ := hread
    exact iff_of_true (by rw [hsome]; rfl) hpos
  · next hpos => exact iff_of_false (by rw [hread]; decide) hpos

/-- **The hole is open** just if its diameter is half a hundredth at least. -/
theorem holeIsOpen_iff : drawn.HoleIsOpen ↔ (0 < hole → 1 / 2 ≤ c.frame.hundredths (hole * 2)) := by
  rw [← Frame.length_pos_iff]
  constructor
  · intro hopen hpos
    obtain ⟨d, hd⟩ := Option.isSome_iff_exists.mp ((h.isSome_drill_iff hhole).mpr hpos)
    have hsides := hopen d hd
    rcases (h.numbers_drill hhole hd).2 with hround | ⟨x, -, hslot⟩
    · exact hsides _ (by rw [hround]; exact List.mem_cons_self)
    · exact hsides _ (by rw [hslot]; exact List.mem_cons_of_mem _ List.mem_cons_self)
  · intro hopen d hd
    obtain ⟨hpos, hround | ⟨x, hlength, hslot⟩⟩ := h.numbers_drill hhole hd
    · rw [hround, List.forall_mem_singleton]
      exact hopen hpos
    · rw [hslot, List.forall_mem_cons, List.forall_mem_singleton]
      exact ⟨hlength, hopen hpos⟩

/-- **A side of the hole is printed as zero** just if the diameter is less than half a hundredth. -/
theorem hasZeroSide_iff : drawn.HasZeroSide ↔
    0 < hole ∧ -1 / 2 < c.frame.hundredths (hole * 2) ∧ c.frame.hundredths (hole * 2) < 1 / 2 := by
  rw [← Frame.numberText_length_eq_zero_iff]
  constructor
  · rintro ⟨d, hd, x, hx, hzero⟩
    obtain ⟨hpos, hround | ⟨y, hlength, hslot⟩⟩ := h.numbers_drill hhole hd
    · rw [hround] at hx
      obtain rfl := List.mem_singleton.mp hx
      exact ⟨hpos, hzero⟩
    · rw [hslot] at hx
      rcases List.mem_cons.mp hx with rfl | hx
      · exact absurd hzero (Frame.numberText_length_ne_zero hlength)
      · obtain rfl := List.mem_singleton.mp hx
        exact ⟨hpos, hzero⟩
  · rintro ⟨hpos, hzero⟩
    obtain ⟨d, hd⟩ := Option.isSome_iff_exists.mp ((h.isSome_drill_iff hhole).mpr hpos)
    refine ⟨d, hd, _, ?_, hzero⟩
    rcases (h.numbers_drill hhole hd).2 with hround | ⟨x, -, hslot⟩
    · rw [hround]
      exact List.mem_cons_self
    · rw [hslot]
      exact List.mem_cons_of_mem _ List.mem_cons_self

end IsPadOf

/-- **When the pad of a record can be made.** A record that is read is drawn as one pad, with a hole just if its radius
is more than zero. The hole is open just if its diameter in hundredths is no less than one half, and a custom pad has
its outline just if the record has two words for it. Both formats show the pad as it is: with a side of zero just if
the diameter is less than one half on either side, and without an outline just if it has none. -/
theorem pad_can_be_made_iff {line : String} {fields : List String} {p : Placement}
    (hrecord : Record.ofLine? line = some ⟨"PAD", fields⟩) (haccepted : read c line = .ok p) :
    ∃ drawn hole, p.primitives = [.pad drawn] ∧ Fields.number ⟨"PAD", fields⟩ 7 = .ok hole ∧
      (drawn.mounting = .throughHole ↔ 0 < hole) ∧ (drawn.drill.isSome = true ↔ 0 < hole) ∧
      (drawn.shape = .custom ↔ fields[0]? = some "POLYGON") ∧
      (drawn.HoleIsOpen ↔ (0 < hole → 1 / 2 ≤ c.frame.hundredths (hole * 2))) ∧
      (drawn.HasItsOutline ↔ (fields[0]? = some "POLYGON" → 2 ≤ (Text.words (fields[8]?.getD "").toList).length)) ∧
      (Modern.PrimitiveForm.read? (Modern.pad drawn).datum = some (.pad drawn.form) ∧
        (drawn.form.ShowsNoHole ↔
          0 < hole ∧ -1 / 2 < c.frame.hundredths (hole * 2) ∧ c.frame.hundredths (hole * 2) < 1 / 2) ∧
        (drawn.form.ShowsNoOutline ↔ ¬ drawn.HasItsOutline)) ∧
      Legacy.ReadsAs ((Legacy.pad drawn).map Legacy.Line.print) [.pad drawn.lineForm] ∧
        (drawn.lineForm.ShowsNoHole ↔
          0 < hole ∧ -1 / 2 < c.frame.hundredths (hole * 2) ∧ c.frame.hundredths (hole * 2) < 1 / 2) := by
  obtain ⟨drawn, hpad, rfl⟩ := yields_pad ((read_of_record .pad hrecord).mp haccepted)
  obtain ⟨hole, hhole, -⟩ := hpad.hole
  have hzero := hpad.hasZeroSide_iff hhole
  have hthrough := hpad.throughHole_iff hhole
  have hsome := hpad.isSome_drill_iff hhole
  refine ⟨drawn, hole, rfl, hhole, hthrough, hsome, hpad.custom_iff, hpad.holeIsOpen_iff hhole,
    hpad.hasItsOutline_iff, ⟨Modern.read?_datum_pad drawn, ?_, ?_⟩, Legacy.readsAs_pad drawn, ?_⟩
  · rw [Pad.showsNoHole_form_iff, hzero]
  · exact Pad.showsNoOutline_form_iff hpad.outline_eq_nil
  · rw [Pad.showsNoHole_lineForm_iff (hthrough.trans hsome.symm), hzero]

/-- A drilled pad with three vertices. -/
theorem pad_can_be_made_iff_triangle : ∃ p drawn,
    read Board.fromCorner "PAD~POLYGON~100~100~10~10~11~1~1~90 90 110 90 100 120" = .ok p ∧
      p.primitives = [.pad drawn] ∧ drawn.mounting = .throughHole ∧ drawn.HoleIsOpen ∧ drawn.HasItsOutline ∧
      ¬ drawn.form.ShowsNoHole ∧ ¬ drawn.form.ShowsNoOutline ∧ ¬ drawn.lineForm.ShowsNoHole := by
  obtain ⟨p, hread⟩ := exists_of_isOk (show (read Board.fromCorner
    "PAD~POLYGON~100~100~10~10~11~1~1~90 90 110 90 100 120").isOk = true by decide +kernel)
  have hrecord : Record.ofLine? "PAD~POLYGON~100~100~10~10~11~1~1~90 90 110 90 100 120" =
      some ⟨"PAD", ["POLYGON", "100", "100", "10", "10", "11", "1", "1", "90 90 110 90 100 120"]⟩ := by decide
  obtain ⟨drawn, hole, hprimitives, hhole, hthrough, -, -, hopen, houtline, ⟨-, hmodern, hcustom⟩, -, hlegacy⟩ :=
    pad_can_be_made_iff hrecord hread
  have hone : (Fields.number
      ⟨"PAD", ["POLYGON", "100", "100", "10", "10", "11", "1", "1", "90 90 110 90 100 120"]⟩ 7).toOption = some 1 := by
    decide +kernel
  rw [hhole] at hone
  obtain rfl := Option.some.inj hone
  have hpos : (0 : Float) < 1 := by decide
  have hlarge : 1 / 2 ≤ Board.fromCorner.frame.hundredths (1 * 2) := by decide +kernel
  have hsolid : drawn.HasItsOutline := houtline.mpr fun _ => by decide
  have hnot : ¬ Board.fromCorner.frame.hundredths (1 * 2) < 1 / 2 := not_lt_of_le hlarge
  exact ⟨p, drawn, hread, hprimitives, hthrough.mpr hpos, hopen.mpr fun _ => hlarge, hsolid,
    fun h => hnot (hmodern.mp h).2.2, fun h => hcustom.mp h hsolid, fun h => hnot (hlegacy.mp h).2.2⟩

/-- The pads that a line places. -/
def placedPads (c : FootprintContext) (line : String) : List Pad :=
  (read c line).toOption.toList.flatMap fun p => p.primitives.filterMap Primitive.pad?

/-- A hole of a thousandth of a unit is drilled with nothing, and one number makes no outline, but both records are read
as pads and shown so. -/
theorem pad_cannot_be_made_thousandth :
    ((placedPads Board.fromCorner "PAD~ELLIPSE~100~100~10~10~11~1~0.001").map Pad.form) =
      [{ number := "1", mounting := .throughHole, shape := .circle, position := ⟨"25.4", "25.4"⟩, rotation := "0",
         size := ⟨"2.54", "2.54"⟩, drill := some (.round "0"), layers := [.allCopper, .allMask], outline := [] }] ∧
    ((placedPads Board.fromCorner "PAD~ELLIPSE~100~100~10~10~11~1~0.001").map fun p => p.lineForm.drill) =
      [⟨"0", none⟩] ∧
    ((placedPads Board.fromCorner "PAD~POLYGON~100~100~10~10~1~1~0~90").map Pad.form) =
      [{ number := "1", mounting := .surface, shape := .custom, position := ⟨"25.4", "25.4"⟩, rotation := "0",
         size := ⟨"2.54", "2.54"⟩, drill := none, layers := [.frontCopper, .frontPaste, .frontMask],
         outline := [] }] := by
  decide +kernel

end Placement

end EdaParts
