import EdaParts.Component.Source
import EdaParts.Symbol.Record

/-!
# Drawing a symbol

The records of a symbol are folded into a `Sheet`: its graphics, and the sides of the body on which
pins are wired. `Sheet.places` places the fields around the declared size, moved inward on each
side that has wires, and `Sheet.finish` adds the fields.
-/

namespace EdaParts

/-- What the records so far have drawn. -/
structure Sheet where
  graphics : List Graphic
  wires : WiredSides

/-- A point in mils as it is calculated. -/
structure CheckedPoint where
  x : Checked
  y : Checked

def CheckedPoint.point (p : CheckedPoint) : MilPoint :=
  ⟨p.x.value, p.y.value⟩

/-- The places of the reference, the value and the first of the hidden fields, as they are
calculated. -/
structure FieldPlaces where
  reference : CheckedPoint
  value : CheckedPoint
  footprint : CheckedPoint

/-- Where the reference, the value and the first of the hidden fields stand. -/
structure SymbolLayout where
  reference : MilPoint
  value : MilPoint
  footprint : MilPoint
  deriving Repr, DecidableEq

namespace Sheet

/-- The sheet before the first record. -/
def empty : Sheet := ⟨[], .none⟩

/-- The sheet with one more record. -/
def place (s : Sheet) (p : SymbolPlacement) : Sheet :=
  ⟨s.graphics ++ p.graphics,
   match p.wire with
   | some side => s.wires.insert side
   | none => s.wires⟩

/-- The sheet with the record of one more line. One that cannot be drawn is noticed and changes
nothing. -/
def placeLine (frame : Frame) (s : Sheet) (line : String) : Logged Sheet := do
  match ← (SymbolPlacement.ofLine frame line).run with
  | .ok p => return s.place p
  | .error skip => ⟨s, [skip.notice "Schematic"]⟩

def ofLines (frame : Frame) (lines : List String) : Logged Sheet :=
  lines.foldlM (placeLine frame) empty

/-- The sheet with what was read from one more line. -/
def placeRead (s : Sheet) : Except Skip SymbolPlacement → Sheet
  | .ok p => s.place p
  | .error _ => s

theorem value_placeLine (frame : Frame) (s : Sheet) (line : String) :
    (placeLine frame s line).value = s.placeRead (SymbolPlacement.read frame line) := by
  simp only [placeLine, Logged.value_bind, SymbolPlacement.read]
  split <;> simp_all [placeRead]

/-- The sheet depends on the lines through what is read from each of them alone. -/
theorem value_ofLines (frame : Frame) (lines : List String) :
    (ofLines frame lines).value =
      (lines.map (SymbolPlacement.read frame)).foldl placeRead empty := by
  simp only [ofLines, Logged.value_foldlM, value_placeLine, List.foldl_map]

/-- How far a field moves inward on a side with wires, in mils. -/
def nudge (wired : Bool) : Checked := if wired then 120 else 0

/-- The places of the fields around half a size in mils, moved inward on the sides with wires. -/
def placesAround (wires : WiredSides) (halfWidth halfHeight : Checked) : FieldPlaces :=
  { reference := ⟨-halfWidth + 60 + nudge wires.left, halfHeight + 60 - nudge wires.top⟩
    value := ⟨halfWidth + 40 - nudge wires.right, -halfHeight - 50 + nudge wires.bottom⟩
    footprint := ⟨halfWidth + 200 - nudge wires.right, halfHeight + 180 - nudge wires.top⟩ }

/-- Half a length on the canvas in mils at a scale. -/
def half (scale length : Float) : Int :=
  Binary64.truncated (length / 2 * scale)

/-- The places of the fields around a declared size, as they are calculated in mils at a scale. -/
def places (s : Sheet) (scale : Float) (size : Extent) : FieldPlaces :=
  placesAround s.wires (.given (half scale size.width)) (.given (half scale size.height))

/-- The places of the fields around a declared size, in mils at a scale. -/
def layout (s : Sheet) (scale : Float) (size : Extent) : SymbolLayout :=
  let places := s.places scale size
  ⟨places.reference.point, places.value.point, places.footprint.point⟩

/-- The number of the unit that a symbol consists of. -/
def unit : Nat := 1

/-- The place some lines of 100 mils above another one. -/
def above (place : CheckedPoint) (line : Nat) : CheckedPoint :=
  ⟨place.x, place.y + 100 * Checked.given line⟩

/-- A hidden field that begins at its position, some lines above the first one. -/
def hiddenField (places : FieldPlaces) (key : FieldKey) (line : Nat) (value : String) : SymbolField :=
  ⟨key, value, (above places.footprint line).point, false, true⟩

/-- The fields of a symbol. The reference and the value can be seen; the others are stacked out of
sight. -/
def fields (places : FieldPlaces) (info : ComponentInfo) (footprint : String) :
    List SymbolField :=
  [⟨.reference, info.designator, places.reference.point, true, false⟩,
   ⟨.value, info.name, places.value.point, true, true⟩,
   hiddenField places .footprint 0 footprint,
   hiddenField places .datasheet 1 info.datasheet,
   hiddenField places .lcscId 2 info.catalogId,
   hiddenField places .description 3 info.description,
   hiddenField places .category 4 info.category,
   hiddenField places .manufacturer 5 info.manufacturer]

/-- The symbol of the sheet, with the fields placed around a declared size. -/
def finish (s : Sheet) (scale : Float) (info : ComponentInfo) (size : Extent)
    (footprint : String) : Symbol :=
  { name := info.name
    designator := info.designator
    part := unit
    fields := fields (s.places scale size) info footprint
    graphics := s.graphics }

end Sheet

end EdaParts
