import EdaParts.Footprint.Record

/-!
# Drawing a footprint

The records of a footprint are folded into a `Board`: what they draw, their bounding box and the
model named last. `Board.finish` adds the texts around the box, and moves everything so that the
center of the box lands on the origin.
-/

namespace EdaParts

/-- What the records so far have drawn. -/
structure Board where
  primitives : List Primitive
  box : Box
  model : Option ModelRef

namespace Board

/-- The board before the first record. -/
def empty : Board := ⟨[], .empty, none⟩

/-- The board with one more record. -/
def place (b : Board) (p : Placement) : Board :=
  ⟨b.primitives ++ p.primitives, p.extents.foldl Box.widen b.box, p.model.or b.model⟩

/-- The board with the record of one more line. One that cannot be drawn is noticed and changes
nothing. -/
def placeLine (c : FootprintContext) (b : Board) (line : String) : Logged Board := do
  match ← (Placement.ofLine c line).run with
  | .ok p => return b.place p
  | .error skip => ⟨b, [skip.notice "Footprint"]⟩

def ofLines (c : FootprintContext) (lines : List String) : Logged Board :=
  lines.foldlM (placeLine c) empty

/-- The board with what was read from one more line. -/
def placeRead (b : Board) : Except Skip Placement → Board
  | .ok p => b.place p
  | .error _ => b

theorem value_placeLine (c : FootprintContext) (b : Board) (line : String) :
    (placeLine c b line).value = b.placeRead (Placement.read c line) := by
  simp only [placeLine, Logged.value_bind, Placement.read]
  split <;> simp_all [placeRead]

/-- The board depends on the lines through what is read from each of them alone. -/
theorem value_ofLines (c : FootprintContext) (lines : List String) :
    (ofLines c lines).value = (lines.map (Placement.read c)).foldl placeRead empty := by
  simp only [ofLines, Logged.value_foldlM, value_placeLine, List.foldl_map]

/-- How far texts stand from the box in millimetres: the reference above it, and the value and the
user text below. -/
def referenceGap : Float := 2

@[inherit_doc referenceGap]
def valueGap : Float := 2

@[inherit_doc referenceGap]
def userGap : Float := 4

/-- The texts around the box, before it is moved. -/
def texts (b : Board) (name : String) : List BoardText :=
  let x := b.box.center.x
  let top := if b.box.isEmpty then 0 else b.box.minY
  let bottom := if b.box.isEmpty then 0 else b.box.maxY
  [⟨.reference, "REF**", ⟨x, top - referenceGap⟩, .frontSilk⟩,
   ⟨.user, "REF**", ⟨x, bottom + userGap⟩, .frontFab⟩,
   ⟨.value, name, ⟨x, bottom + valueGap⟩, .frontFab⟩]

/-- A model moved along with the board by the vector from `center` to the origin; its y axis points
up. -/
def moveModel (center : Point) (m : ModelRef) : ModelRef :=
  { m with
    offset :=
      ⟨roundTo boardPlaces (m.offset.x - center.x), roundTo boardPlaces (m.offset.y + center.y),
       m.offset.z⟩ }

/-- The footprint of the board, with the center of the box on the origin. -/
def finish (b : Board) (name : String) : Footprint :=
  let center := b.box.center
  { name
    description := name ++ " footprint"
    primitives := b.primitives.map (Primitive.translate ⟨-center.x, -center.y⟩)
    texts := (b.texts name).map fun t => { t with position := t.position - center }
    model := b.model.map (moveModel center) }

end Board

end EdaParts
