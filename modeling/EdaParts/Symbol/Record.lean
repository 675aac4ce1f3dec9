import EdaParts.Path.Element
import EdaParts.Record.Fields
import EdaParts.Record.Tokens
import EdaParts.Symbol.Basic

/-!
# Symbol records

Each kind of record is read on its own, in the frame of its symbol: the graphics it draws, and for
a pin the side on which it is wired.

* `SymbolKind` : the kinds of records and their tags;
* `SymbolPlacement` : what one record adds;
* `polylines`, `curves` : paths that are mostly straight, and mostly curved;
* `SymbolPlacement.ofLine`, `SymbolPlacement.read` : the record of a line, with and without the
  notices.
-/

namespace EdaParts

/-- A kind of symbol record. -/
inductive SymbolKind where
  | rect
  | ellipse
  | pin
  | text
  | polyline
  | polygon
  | path
  | arc
  deriving Repr, DecidableEq

namespace SymbolKind

def tag : SymbolKind → String
  | rect => "R"
  | ellipse => "E"
  | pin => "P"
  | text => "T"
  | polyline => "PL"
  | polygon => "PG"
  | path => "PT"
  | arc => "A"

def all : List SymbolKind :=
  [rect, ellipse, pin, text, polyline, polygon, path, arc]

def ofTag (tag : String) : Except Skip SymbolKind :=
  match all.find? (·.tag = tag) with
  | some kind => .ok kind
  | none => .error (.unknownKind tag)

end SymbolKind

/-- What one record adds to a symbol. -/
structure SymbolPlacement where
  graphics : List Graphic
  wire : Option Side

namespace SymbolPlacement

/-- A placement of one graphic without a wire. -/
def single (g : Graphic) : SymbolPlacement :=
  ⟨[g], none⟩

/-- A rectangle: corner and size. A record of twelve fields has the radii of its corners before the
size. -/
def rect (frame : Frame) (f : Fields) : Except Skip SymbolPlacement := do
  let long := f.values.length = 12
  let x ← f.number 0
  let y ← f.number 1
  let w ← f.number (if long then 4 else 2)
  let h ← f.number (if long then 5 else 3)
  return single (.rectangle (frame.mils ⟨x, y⟩) (frame.mils ⟨x + w, y + h⟩))

/-- An ellipse, drawn as the circle of its first radius. -/
def ellipse (frame : Frame) (f : Fields) : Except Skip SymbolPlacement := do
  let center := frame.mils ⟨← f.number 0, ← f.number 1⟩
  return single (.circle center (frame.milLength (← f.number 2)))

/-- Mils to a canvas unit of a pin's length, at every scale of the symbol. -/
def pinLengthScale : Float := 10

/-- The mark between the sections of a pin record. -/
def sectionMark : List Char := ['^', '^']

/-- The last section of a field. -/
def lastSection (s : String) : String :=
  match Text.cutLast sectionMark s.toList with
  | some (_, found) => String.ofList (found.drop sectionMark.length)
  | none => s

/-- A pin: type, number, position, angle, the path of its stub, which gives its length, and its
name. An unknown angle is noticed; the pin then points left and is not wired. -/
def pin (frame : Frame) (f : Fields) : Reading SymbolPlacement := do
  let type := PinType.ofCode (← f.text 1)
  let number ← f.text 2
  let position := frame.mils ⟨← f.number 3, ← f.number 4⟩
  let angle ← f.text 5
  let elements ← (Element.ofPath (lastSection (← f.text 8))).mapError (Skip.badPath "P")
  let length := Binary64.truncated (totalLength elements * pinLengthScale)
  let name := Text.substitute ' ' ['_'] (← f.text 13)
  let (orientation, wire) ←
    match PinOrientation.ofAngle? angle with
    | some (orientation, side) => pure (orientation, some side)
    | none => do
      Reading.note .warn (s!"Schematic: pin {name} number {number} failed to find orientation. "
        ++ "Using Default orientation 'Left'")
      pure (PinOrientation.left, none)
  return ⟨[.pin { name, number, type, position, length, orientation }], wire⟩

/-- The size in mils of texts in the style of comments. -/
def commentSize : Int := 80

/-- The size of a text in mils, from its style or from points. -/
def textSize (f : Fields) : Except Skip Int := do
  let size ← f.text 5
  if f.get? 10 = some "comment" || size = "comment" then return commentSize
  else
    let points := ptless size.toList
    match Decimal.readFloat? (Text.trim points) with
    | some x => return Binary64.truncated (x * 10)
    | none => throw (.badNumber f.kind 5 size)
where
  /-- The text without any unit of points at its end. -/
  ptless (cs : List Char) : List Char :=
    (dropUnits cs.reverse).reverse
  /-- The reversed text without any reversed unit at its front. -/
  dropUnits : List Char → List Char
    | 't' :: 'p' :: cs => dropUnits cs
    | cs => cs

/-- The angle of a text in tenths of a degree, cut to whole degrees. -/
def textAngle (degrees : Float) : Checked :=
  Checked.given (Binary64.truncated degrees) * 10

/-- A text: angle, position, size, the text itself, and whether it is hidden. -/
def text (frame : Frame) (f : Fields) : Except Skip SymbolPlacement := do
  let angle := (textAngle (← f.number 3)).value
  let position := frame.mils ⟨← f.number 1, ← f.number 2⟩
  let size ← textSize f
  let shown ← f.text 6
  let hidden := f.get? 7 = some "0" || f.get? 7 = some "none"
  return single (.text shown position angle size hidden)

/-- The vertices of the first field, at least one. -/
def vertices (frame : Frame) (f : Fields) : Except Skip (List MilPoint) := do
  let points := (← f.points 0).map frame.mils
  if points.isEmpty then throw (.pathShape f.kind "no vertices") else return points

/-- A line through vertices. -/
def polyline (frame : Frame) (f : Fields) : Except Skip SymbolPlacement := do
  return single (.polyline (← vertices frame f) false)

/-- A filled area within vertices, closed by the first of them. -/
def polygon (frame : Frame) (f : Fields) : Except Skip SymbolPlacement := do
  let points ← vertices frame f
  return single (.polyline (points ++ points.take 1) true)

def arcGraphic (frame : Frame) (a : Arc) : Graphic :=
  .arc (frame.mils a.center) (frame.milLength a.radius) (frame.mils a.start) (frame.mils a.mid)
    (frame.mils a.stop)

/-- A line through the points of a run, last first, if there are at least two. -/
def flush (run : List MilPoint) : List Graphic :=
  if 2 ≤ run.length then [.polyline run.reverse false] else []

/-- The polylines of the elements after the points of a run, last first: one for each run of
elements between moves, through the start of the first of them and the ends of all. -/
def polylinesFrom (frame : Frame) (run : List MilPoint) : List Element → List Graphic
  | [] => flush run
  | e :: es =>
    if e.isMove then flush run ++ polylinesFrom frame [] es
    else
      let run := if run.isEmpty then [frame.mils e.start] else run
      polylinesFrom frame (frame.mils e.stop :: run) es

/-- A path that is mostly straight, its curves reduced to their ends. -/
def polylines (frame : Frame) (elements : List Element) : List Graphic :=
  polylinesFrom frame [] elements

/-- The graphic of one element of a path that is mostly curved. A curve of second degree is drawn as
one of third degree. -/
def curve? (frame : Frame) : Element → Option Graphic
  | .move _ => none
  | .line p q | .close p q => some (.polyline [frame.mils p, frame.mils q] false)
  | .cubic p0 p1 p2 p3 =>
    some (.bezier (frame.mils p0) (frame.mils p1) (frame.mils p2) (frame.mils p3))
  | .quadratic p0 p1 p2 =>
    let c1 := p0 + (p1 - p0).scale (2 / 3)
    let c2 := p2 + (p1 - p2).scale (2 / 3)
    some (.bezier (frame.mils p0) (frame.mils c1) (frame.mils c2) (frame.mils p2))
  | .arc a => some (arcGraphic frame a)

/-- A path that is mostly curved, element by element. -/
def curves (frame : Frame) (elements : List Element) : List Graphic :=
  elements.filterMap (curve? frame)

/-- A path: curves if more than half of what it draws is curved, and polylines otherwise, where each
curve is noticed. -/
def path (frame : Frame) (f : Fields) : Reading SymbolPlacement := do
  let elements ← (Element.ofPath (← f.text 0)).mapError (Skip.badPath "PT")
  let drawn := elements.countP (!·.isMove)
  if drawn = 0 then throw (.pathShape "PT" "path draws nothing")
  let curved := elements.countP (·.isCurve)
  if drawn - curved < curved then return ⟨curves frame elements, none⟩
  else
    for e in elements do
      if e.isCurve then
        Reading.note .warn "Schematic: curve in a straight path, keeping its end point only"
    return ⟨polylines frame elements, none⟩

def arc? : Element → Option Arc
  | .arc a => some a
  | _ => none

/-- An arc: the first one of a path. -/
def arc (frame : Frame) (f : Fields) : Except Skip SymbolPlacement := do
  let elements ← (Element.ofPath (← f.text 0)).mapError (Skip.badPath "A")
  match elements.findSome? arc? with
  | some a => return single (arcGraphic frame a)
  | none => throw (.pathShape "A" "path has no arc segment")

def ofKind (frame : Frame) (kind : SymbolKind) (f : Fields) : Reading SymbolPlacement :=
  match kind with
  | .rect => liftM (rect frame f)
  | .ellipse => liftM (ellipse frame f)
  | .pin => pin frame f
  | .text => liftM (text frame f)
  | .polyline => liftM (polyline frame f)
  | .polygon => liftM (polygon frame f)
  | .path => path frame f
  | .arc => liftM (arc frame f)

def ofLine (frame : Frame) (line : String) : Reading SymbolPlacement := do
  match Record.ofLine? line with
  | none => throw (.unknownKind "")
  | some record =>
    let kind ← SymbolKind.ofTag record.tag
    ofKind frame kind ⟨kind.tag, record.fields⟩

/-- The record of a line, without the notices. -/
def read (frame : Frame) (line : String) : Except Skip SymbolPlacement :=
  (ofLine frame line).run.value

end SymbolPlacement

end EdaParts
