import EdaParts.Footprint.Box
import EdaParts.Footprint.Model
import EdaParts.Path.Describe
import EdaParts.Record.Fields
import EdaParts.Record.Tokens

/-!
# Footprint records

Each kind of record is read on its own, in the frame of its footprint: what it draws, the points by
which it widens the bounding box, and the model it names. Pads widen the box by their outline and
tracks by their vertices; nothing else does.

* `FootprintKind` : the kinds of records and their tags;
* `Placement` : what one record adds;
* `Placement.ofLine`, `Placement.read` : the record of a line, with and without the notices.
-/

namespace EdaParts

/-- A kind of footprint record. -/
inductive FootprintKind where
  | track
  | pad
  | arc
  | circle
  | rect
  | solidRegion
  | svgNode
  | via
  deriving Repr, DecidableEq

namespace FootprintKind

def tag : FootprintKind → String
  | track => "TRACK"
  | pad => "PAD"
  | arc => "ARC"
  | circle => "CIRCLE"
  | rect => "RECT"
  | solidRegion => "SOLIDREGION"
  | svgNode => "SVGNODE"
  | via => "VIA"

def all : List FootprintKind :=
  [track, pad, arc, circle, rect, solidRegion, svgNode, via]

def ofTag (tag : String) : Except Skip FootprintKind :=
  match all.find? (·.tag = tag) with
  | some kind => .ok kind
  | none => .error (.unknownKind tag)

end FootprintKind

/-- What the records of one footprint share: its frame, and where models are found, if they are
wanted. -/
structure FootprintContext where
  frame : Frame
  resolver : Option Resolver

/-- What one record adds to a footprint. -/
structure Placement where
  primitives : List Primitive
  extents : List Point
  model : Option ModelRef

namespace Placement

/-- A placement of one thing that does not widen the box. -/
def single (p : Primitive) : Placement :=
  ⟨[p], [], none⟩

/-- The layer of the field at a position. An unknown or missing code is noticed, and the fallback
taken. -/
def layerAt (f : Fields) (index : Nat) : Reading Layer := do
  let code := (f.get? index).getD ""
  match Layer.ofCode? code with
  | some layer => return layer
  | none =>
    Reading.note .warn (s!"Footprint({f.kind}): layer correspondence not found for '{code}', using "
      ++ Layer.fallback.name)
    return Layer.fallback

/-- A field that holds blanks between other characters is a list of coordinates. -/
def isPointList (s : String) : Bool :=
  (Text.trim s.toList).any Text.isBlank

/-- The lines between neighbours of a list of vertices. -/
def segments (width : Float) (layer : Layer) : List Point → List Primitive
  | p :: q :: rest => .line p q width layer :: segments width layer (q :: rest)
  | _ => []

/-- A track: width, layer and vertices, with a line between neighbours. In the short form the layer
is left out, which shows by the blanks in the field after the width. -/
def track (c : FootprintContext) (f : Fields) : Reading Placement := do
  let width := c.frame.length (← f.number 0)
  let short := (f.get? 1).any isPointList
  let layer ←
    if short then do
      Reading.note .warn ("Footprint(TRACK): no layer code, using " ++ Layer.fallback.name)
      pure Layer.fallback
    else layerAt f 1
  let nodes := (← f.points (if short then 1 else 2)).map c.frame.point
  return ⟨segments width layer nodes, nodes, none⟩

/-- A point with both coordinates rounded as on the board. -/
def snap (x y : Float) : Point :=
  ⟨roundTo boardPlaces x, roundTo boardPlaces y⟩

/-- The vertices of a custom outline on the board; for other pads two corners of the upright box
around the turned rectangle of its size. -/
def padExtents (position size : Point) (rotation : Float) (outline : List Point) : List Point :=
  if outline.isEmpty then
    let angle := Binary64.radians rotation
    let sin := angle.sin
    let cos := angle.cos
    let w := size.x / 2
    let h := size.y / 2
    let halfX := (w * cos).abs + (h * sin).abs
    let halfY := (w * sin).abs + (h * cos).abs
    [snap (position.x - halfX) (position.y - halfY), snap (position.x + halfX) (position.y + halfY)]
  else outline.map fun p => snap (position.x + p.x) (position.y + p.y)

/-- The shape of a code. An unknown code is noticed, and taken for an oval. -/
def padShape (code : String) : Reading PadShape :=
  match code with
  | "OVAL" => pure .oval
  | "RECT" => pure .rect
  | "ELLIPSE" => pure .circle
  | "POLYGON" => pure .custom
  | other => do
    Reading.note .error
      s!"Footprint(PAD): no shape correspondence for '{other}', using default oval"
    pure .oval

/-- The hole of a pad by its radius on the canvas: round, or a slot if the record has a length that
differs from the diameter. -/
def padDrill (c : FootprintContext) (f : Fields) (hole : Float) : Except Skip Drill := do
  let diameter := c.frame.length (hole * 2)
  let length :=
    match ← f.number? 11 with
    | some x => c.frame.length x
    | none => 0
  return if length > 0 && length != diameter then .slot length diameter else .round diameter

/-- A custom outline, from vertices on the canvas to offsets from the pad's position. -/
def padOutline (c : FootprintContext) (f : Fields) (position : Point) :
    Except Skip (List Point) := do
  return (← f.points 8).map fun v =>
    let p := c.frame.point v
    snap (p.x - position.x) (p.y - position.y)

/-- A pad: shape, position, size, layer, number, hole, outline, rotation and length of the hole.
With a hole it goes through all layers, without one it lies on the front or the back. -/
def pad (c : FootprintContext) (f : Fields) : Reading Placement := do
  let code ← f.text 0
  let position := c.frame.point ⟨← f.number 1, ← f.number 2⟩
  let size : Point := ⟨c.frame.length (← f.number 3), c.frame.length (← f.number 4)⟩
  let number ← f.text 6
  let hole ← f.number 7
  let shape ← padShape code
  let drill ← if hole > 0 then some <$> padDrill c f hole else pure none
  let layers : List Layer :=
    if hole > 0 then [.allCopper, .allMask]
    else if f.get? 5 = some "2" then [.backCopper, .backPaste, .backMask]
    else [.frontCopper, .frontPaste, .frontMask]
  let rotation ←
    match shape with
    | .oval | .rect => (·.getD 0) <$> f.number? 9
    | .circle | .custom => pure 0
  let outline ←
    match shape with
    | .custom => padOutline c f position
    | _ => pure []
  let mounting := if hole > 0 then Mounting.throughHole else .surface
  let drawn : Pad :=
    { number, mounting, shape, position, size, rotation, layers, drill, outline }
  return ⟨[.pad drawn], padExtents position size rotation outline, none⟩

/-- The first of two fields that looks like a path. -/
def arcPath (f : Fields) : Except Skip String :=
  let looksLikePath (s : String) := (Text.trimStart s.toList).head? == some 'M'
  match ([2, 3].filterMap f.get?).find? looksLikePath with
  | some path => .ok path
  | none => .error (.pathShape "ARC" "no path in field 2 or 3")

/-- An arc: width, layer and a path of a move and an arc, drawn from its end to its start. -/
def arc (c : FootprintContext) (f : Fields) : Reading Placement := do
  let width := c.frame.length (← f.number 0)
  let path ← arcPath f
  let elements ← (Element.ofPath path).mapError (Skip.badPath "ARC")
  match elements.drop 1 with
  | .arc a :: _ =>
    let layer ← layerAt f 1
    return single (.arc (c.frame.point a.center) (c.frame.point a.stop) (c.frame.point a.mid)
      (c.frame.point a.start) (roundTo boardPlaces (-Binary64.degrees a.sweepAngle)) width layer)
  | rest =>
    throw (.pathShape "ARC" ("second element is not an arc: " ++ Element.describeOption rest.head?))

/-- The code of the layer on which the vendor draws the outlines of pads. -/
def padOutlineCode : String := "100"

/-- A circle: center, radius, width and layer. Those around pads are covered by the pads. -/
def circle (c : FootprintContext) (f : Fields) : Reading Placement := do
  if f.get? 4 = some padOutlineCode then throw (.suppressed "CIRCLE on the pad meta-layer")
  let center := c.frame.point ⟨← f.number 0, ← f.number 1⟩
  let radius := c.frame.length (← f.number 2)
  let width := c.frame.length (← f.number 3)
  return single (.circle center radius width (← layerAt f 4))

/-- The width in millimetres of the outline of a rectangle, which has none of its own. -/
def rectWidth : Float := 0.12

/-- A rectangle: corner, size and layer. -/
def rect (c : FootprintContext) (f : Fields) : Reading Placement := do
  let start := c.frame.point ⟨← f.number 0, ← f.number 1⟩
  let width := c.frame.length (← f.number 2)
  let height := c.frame.length (← f.number 3)
  let layer ← layerAt f 4
  return single (.rect start (snap (start.x + width) (start.y + height)) rectWidth layer)

/-- A model: the document in its first field. Without a resolver it leaves no trace. -/
def modelNode (c : FootprintContext) (f : Fields) : Reading Placement := do
  let text ← f.text 0
  match ModelNode.read text with
  | .error e => throw (.badDocument "SVGNODE" e)
  | .ok node =>
    let found := c.resolver.bind fun resolve => resolve node.identifier (node.placement c.frame)
    if let some m := found then Reading.note .info ("Footprint: 3D model -> " ++ m.path)
    return ⟨[], [], found⟩

def ofKind (c : FootprintContext) (kind : FootprintKind) (f : Fields) : Reading Placement :=
  match kind with
  | .track => track c f
  | .pad => pad c f
  | .arc => arc c f
  | .circle => circle c f
  | .rect => rect c f
  | .svgNode => modelNode c f
  | .solidRegion => throw (.inert "SOLIDREGION")
  | .via => do
    Reading.note .info "      Via are often added for better heat dissipation."
    Reading.note .info "      Be careful and read datasheet if needed."
    throw (.unsupported "VIA")

def ofLine (c : FootprintContext) (line : String) : Reading Placement := do
  match Record.ofLine? line with
  | none => throw (.unknownKind "")
  | some record =>
    let kind ← FootprintKind.ofTag record.tag
    ofKind c kind ⟨kind.tag, record.fields⟩

/-- The record of a line, without the notices. -/
def read (c : FootprintContext) (line : String) : Except Skip Placement :=
  (ofLine c line).run.value

end Placement

end EdaParts
