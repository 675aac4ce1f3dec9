import EdaParts.Proofs.Component.Skipping
import EdaParts.Proofs.Symbol.Range

/-!
# Wired sides

Pins alone wire the sides of a body, each the side that its angle names, and a side that is wired stays wired.
So the sides of a sheet do not depend on the order of its records, and its fields stand where they stand without
records but for the nudges of the sides that are wired.

* `SymbolPlacement.pin_of_read`, `SymbolPlacement.other_of_read` : what a record adds that is not skipped;
* `Sheet.has_place` : what one placement does to the sides; `Sheet.has_foldl_placeRead` : what a run of lines
  does;
* `Sheet.Nudged` : a coordinate is moved just if a side is wired;
* `Sheet.labels_placed_by_pins` : sides, pins and places of the fields.
-/

namespace EdaParts

open Checked Reading

namespace Side

/-- The angle of the pins that are wired on a side. -/
def angle : Side → String
  | left => "180"
  | right => "0"
  | top => "90"
  | bottom => "270"

theorem ofAngle?_eq_some_iff {code : String} {side : Side} :
    (PinOrientation.ofAngle? code).map Prod.snd = some side ↔ Text.trimmed code = side.angle := by
  unfold PinOrientation.ofAngle?
  split
  case h_5 => cases side <;> simp_all [angle]
  all_goals
    next h => rw [h]; cases side <;> decide

end Side

namespace WiredSides

/-- Pins are wired on the side. -/
def has (w : WiredSides) : Side → Bool
  | .left => w.left
  | .right => w.right
  | .top => w.top
  | .bottom => w.bottom

theorem has_insert (w : WiredSides) (side other : Side) :
    (w.insert side).has other = (w.has other || decide (some side = some other)) := by
  cases side <;> cases other <;> simp [insert, has]

end WiredSides

namespace SymbolPlacement

variable {frame : Frame} {f : Fields} {p : SymbolPlacement} {line : String}

/-! ## What a record adds -/

/-- The line is the record of a pin. -/
def isPin (line : String) : Bool :=
  (Record.ofLine? line).any fun r => r.tag = SymbolKind.pin.tag

/-- The angle of the record of a pin, blanks at its ends left out. -/
def pinAngle? (line : String) : Option String :=
  (Record.ofLine? line).bind fun r =>
    if r.tag = SymbolKind.pin.tag then r.fields[5]?.map Text.trimmed else none

theorem pin?_curves (es : List Element) : (curves frame es).filterMap Graphic.pin? = [] := by
  rw [curves, List.filterMap_filterMap, List.filterMap_eq_nil_iff]
  intro e _
  cases e <;> rfl

theorem pin?_flush (run : List MilPoint) : (flush run).filterMap Graphic.pin? = [] := by
  unfold flush
  split <;> rfl

theorem pin?_polylinesFrom (run : List MilPoint) (es : List Element) :
    (polylinesFrom frame run es).filterMap Graphic.pin? = [] := by
  induction es generalizing run with
  | nil => exact pin?_flush run
  | cons e es ih =>
    unfold polylinesFrom
    split
    · rw [List.filterMap_append, pin?_flush, ih, List.append_nil]
    · exact ih _

theorem other_path (h : (path frame f).Yields p) : p.graphics.filterMap Graphic.pin? = [] ∧ p.wire = none := by
  obtain ⟨text, es, -, -, -, rfl⟩ := yields_path h
  split
  · exact ⟨pin?_curves es, rfl⟩
  · exact ⟨pin?_polylinesFrom [] es, rfl⟩

/-- No record of another kind adds a pin or wires a side. -/
theorem other_ofKind {kind : SymbolKind} (hkind : kind ≠ .pin) (h : (ofKind frame kind f).Yields p) :
    p.graphics.filterMap Graphic.pin? = [] ∧ p.wire = none := by
  cases kind with
  | rect =>
    obtain ⟨x, y, width, height, -, -, -, -, rfl⟩ := rect_eq_ok_iff.mp h
    exact ⟨rfl, rfl⟩
  | ellipse =>
    obtain ⟨x, y, radius, -, -, -, rfl⟩ := ellipse_eq_ok h
    exact ⟨rfl, rfl⟩
  | pin => exact absurd rfl hkind
  | text =>
    obtain ⟨degrees, x, y, size, shown, hidden, -, -, -, -, -, rfl⟩ := text_eq_ok h
    exact ⟨rfl, rfl⟩
  | polyline =>
    obtain ⟨points, -, rfl⟩ := polyline_eq_ok h
    exact ⟨rfl, rfl⟩
  | polygon =>
    obtain ⟨points, -, rfl⟩ := polygon_eq_ok h
    exact ⟨rfl, rfl⟩
  | path => exact other_path h
  | arc =>
    obtain ⟨text, es, a, -, -, -, rfl⟩ := arc_eq_ok h
    exact ⟨rfl, rfl⟩

/-- The record of a pin that is not skipped adds that pin, and is wired on the side that its angle names. -/
theorem pin_of_read (h : read frame line = .ok p) (hpin : isPin line = true) :
    (∃ pin, p.graphics = [.pin pin]) ∧ ∃ code, pinAngle? line = some code ∧
      ∀ side, p.wire = some side ↔ code = side.angle := by
  obtain ⟨kind, fields, hrecord, hyields⟩ := record_of_read h
  rw [isPin, hrecord, Option.any_some, decide_eq_true_iff] at hpin
  have hkind : kind = .pin :=
    Except.ok.inj ((SymbolKind.ofTag_eq_ok_iff.mpr hpin).symm.trans (SymbolKind.ofTag_eq_ok_iff.mpr rfl))
  subst hkind
  obtain ⟨-, -, -, -, angle, -, -, pin, -, -, -, -, hangle, -, -, -, -, -, rfl⟩ := yields_pin hyields
  have hfield : fields[5]? = some angle := Fields.text_eq_ok_iff.mp hangle
  refine ⟨⟨pin, rfl⟩, Text.trimmed angle, ?_, fun side => Side.ofAngle?_eq_some_iff⟩
  rw [pinAngle?, hrecord, Option.bind_some, if_pos rfl, hfield, Option.map_some]

/-- Another record that is not skipped adds no pin and is not wired. -/
theorem other_of_read (h : read frame line = .ok p) (hother : isPin line = false) :
    p.graphics.filterMap Graphic.pin? = [] ∧ p.wire = none ∧ pinAngle? line = none := by
  obtain ⟨kind, fields, hrecord, hyields⟩ := record_of_read h
  rw [isPin, hrecord, Option.any_some, decide_eq_false_iff_not] at hother
  obtain ⟨hgraphics, hwire⟩ := other_ofKind (fun hkind => hother (congrArg SymbolKind.tag hkind)) hyields
  refine ⟨hgraphics, hwire, ?_⟩
  rw [pinAngle?, hrecord, Option.bind_some, if_neg hother]

theorem wire_of_read (h : read frame line = .ok p) (side : Side) :
    p.wire = some side ↔ pinAngle? line = some side.angle := by
  cases hpin : isPin line with
  | true =>
    obtain ⟨-, code, hcode, hwire⟩ := pin_of_read h hpin
    rw [hwire, hcode, Option.some.injEq]
  | false =>
    obtain ⟨-, hwire, hangle⟩ := other_of_read h hpin
    rw [hwire, hangle]
    simp

theorem length_pins_of_read (h : read frame line = .ok p) :
    (p.graphics.filterMap Graphic.pin?).length = if isPin line then 1 else 0 := by
  cases hpin : isPin line with
  | true =>
    obtain ⟨⟨pin, hgraphics⟩, -⟩ := pin_of_read h hpin
    rw [hgraphics]
    rfl
  | false =>
    rw [(other_of_read h hpin).1]
    rfl

end SymbolPlacement

namespace Sheet

open SymbolPlacement (read isPin pinAngle?)

variable {frame : Frame}

/-! ## Along the lines -/

/-- The line is the record of a pin with that angle and is not skipped. -/
def turned (frame : Frame) (angle : String) (line : String) : Bool :=
  accepts frame line && decide (pinAngle? line = some angle)

/-- A side is wired after a placement if it was wired before it or the placement wires it. -/
theorem has_place (s : Sheet) (p : SymbolPlacement) (side : Side) :
    (s.place p).wires.has side = (s.wires.has side || decide (p.wire = some side)) := by
  unfold place
  cases p.wire with
  | none => simp
  | some wired => exact WiredSides.has_insert _ _ _

theorem has_placeRead (s : Sheet) (line : String) (side : Side) :
    (s.placeRead (read frame line)).wires.has side = (s.wires.has side || turned frame side.angle line) := by
  unfold turned accepts
  cases hread : read frame line with
  | error skip => exact (Bool.or_false _).symm
  | ok p =>
    rw [placeRead, has_place, decide_eq_decide.mpr (SymbolPlacement.wire_of_read hread side)]
    rfl

theorem has_foldl_placeRead (lines : List String) (s : Sheet) (side : Side) :
    ((lines.map (read frame)).foldl placeRead s).wires.has side =
      (s.wires.has side || lines.any (turned frame side.angle)) := by
  induction lines generalizing s with
  | nil => exact (Bool.or_false _).symm
  | cons line lines ih => rw [List.map_cons, List.foldl_cons, ih, has_placeRead, List.any_cons, Bool.or_assoc]

/-- The sides of a sheet are wired by the pins with their angles. -/
theorem wires_ofLines (frame : Frame) (lines : List String) :
    (ofLines frame lines).value.wires =
      { left := lines.any (turned frame "180")
        right := lines.any (turned frame "0")
        top := lines.any (turned frame "90")
        bottom := lines.any (turned frame "270") } := by
  have hhas (side : Side) : (ofLines frame lines).value.wires.has side = lines.any (turned frame side.angle) := by
    rw [value_ofLines, has_foldl_placeRead]
    cases side <;> exact Bool.false_or _
  exact congr (congr (congr (congrArg WiredSides.mk (hhas .left)) (hhas .right)) (hhas .top)) (hhas .bottom)

/-- The pins of a sheet. -/
def pins (s : Sheet) : List Pin :=
  s.graphics.filterMap Graphic.pin?

theorem length_pins_placeRead (s : Sheet) (line : String) :
    (s.placeRead (read frame line)).pins.length =
      s.pins.length + if accepts frame line && isPin line then 1 else 0 := by
  unfold accepts
  cases hread : read frame line with
  | error skip => rfl
  | ok p =>
    show ((s.graphics ++ p.graphics).filterMap Graphic.pin?).length = _
    rw [List.filterMap_append, List.length_append, SymbolPlacement.length_pins_of_read hread]
    rfl

theorem length_pins_foldl_placeRead (lines : List String) (s : Sheet) :
    ((lines.map (read frame)).foldl placeRead s).pins.length =
      s.pins.length + lines.countP fun line => accepts frame line && isPin line := by
  induction lines generalizing s with
  | nil => rfl
  | cons line lines ih =>
    rw [List.map_cons, List.foldl_cons, ih, length_pins_placeRead, List.countP_cons]
    omega

/-! ## Places of the fields -/

/-- A coordinate is moved by so many mils just if a side is wired. A sum that leaves the words comes out at their
other end. -/
structure Nudged (wired : Bool) (mils bare laid : Int) : Prop where
  moved_iff : laid = wrapped (bare + mils) ↔ wired = true
  still_iff : laid = bare ↔ wired = false
  exact_iff : InWords (bare + mils) → (laid = bare + mils ↔ wired = true)

/-- The places of the fields differ from others by the nudges of the wired sides. -/
structure NudgedInward (wires : WiredSides) (bare laid : SymbolLayout) : Prop where
  reference_x : Nudged wires.left 120 bare.reference.x laid.reference.x
  reference_y : Nudged wires.top (-120) bare.reference.y laid.reference.y
  value_x : Nudged wires.right (-120) bare.value.x laid.value.x
  value_y : Nudged wires.bottom 120 bare.value.y laid.value.y
  footprint_x : Nudged wires.right (-120) bare.footprint.x laid.footprint.x
  footprint_y : Nudged wires.top (-120) bare.footprint.y laid.footprint.y

theorem wrapped_wrapped_add (n m : Int) : wrapped (wrapped n + m) = wrapped (n + m) :=
  Int.bmod_add_bmod

theorem wrapped_add_ne {n mils : Int} (hmils : mils = 120 ∨ mils = -120) : wrapped (n + mils) ≠ wrapped n := by
  have hwords : ((Nat.pow 2 64 : Nat) : Int) = 18446744073709551616 := by decide
  have hsum : wrapped (n + mils) % 18446744073709551616 = (n + mils) % 18446744073709551616 := by
    rw [wrapped, ← hwords, Int.bmod_emod]
  have hbare : wrapped n % 18446744073709551616 = n % 18446744073709551616 := by
    rw [wrapped, ← hwords, Int.bmod_emod]
  omega

theorem nudged_of_eq {wired : Bool} {mils n laid : Int} (hmils : mils = 120 ∨ mils = -120)
    (h : laid = wrapped (n + if wired then mils else 0)) : Nudged wired mils (wrapped n) laid := by
  have hne : wrapped (n + mils) ≠ wrapped n := wrapped_add_ne hmils
  have hmoved : laid = wrapped (wrapped n + mils) ↔ wired = true := by
    rw [wrapped_wrapped_add, h]
    cases wired
    · simpa using hne.symm
    · simp
  refine ⟨hmoved, ?_, fun hwords => ?_⟩
  · rw [h]
    cases wired
    · simp
    · simpa using hne
  · rw [← hmoved, wrapped_of_inWords hwords]

theorem nudged_add (a : Checked) (wired : Bool) :
    Nudged wired 120 (a + nudge false).value (a + nudge wired).value := by
  have hbare : (a + nudge false).value = wrapped a.value := congrArg wrapped (Int.add_zero _)
  rw [hbare]
  refine nudged_of_eq (.inl rfl) ?_
  cases wired <;> rfl

theorem nudged_sub (a : Checked) (wired : Bool) :
    Nudged wired (-120) (a - nudge false).value (a - nudge wired).value := by
  have hbare : (a - nudge false).value = wrapped a.value := congrArg wrapped (Int.sub_zero _)
  rw [hbare]
  refine nudged_of_eq (.inr rfl) ?_
  cases wired <;> rfl

/-- The fields around a sheet stand where they stand around an empty one but for the nudges of its sides. -/
theorem nudgedInward (s : Sheet) (scale : Float) (size : Extent) :
    NudgedInward s.wires (empty.layout scale size) (s.layout scale size) where
  reference_x := nudged_add _ _
  reference_y := nudged_sub _ _
  value_x := nudged_sub _ _
  value_y := nudged_add _ _
  footprint_x := nudged_sub _ _
  footprint_y := nudged_sub _ _

theorem exists_read_of_accepts (frame : Frame) (line : String) (h : accepts frame line = true) :
    ∃ p, read frame line = .ok p := by
  unfold accepts at h
  cases hread : read frame line with
  | error skip =>
    rw [hread] at h
    cases h
  | ok p => exact ⟨p, rfl⟩

/-- A pin whose height on the canvas and angle are given. -/
def pinLine (height angle : String) : String :=
  s!"P~show~0~1~410~{height}~{angle}~gge3~0^^410~300^^M 410 300 h -10~#880000^^1~405~304~0~VCC~end"

/-- A pin on the left, one at an unknown angle, one that is skipped and a circle. -/
def mixedLines : List String :=
  [pinLine "300" " 180 ", pinLine "310" "45", pinLine "x" "0", "E~400~300~5~5"]

end Sheet

end EdaParts
