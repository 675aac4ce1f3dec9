import EdaParts.Decimal.Notation
import EdaParts.Geometry.Arc
import EdaParts.Geometry.Bezier
import EdaParts.Path.Segment

/-!
# Drawn paths

A path string is drawn by a pen: relative coordinates, one-axis lines and smooth curves are
resolved against where the pen is and what it drew last, and each command leaves one absolute
element, or none for an arc that goes nowhere.

* `Element` : a move, or a line, closing line, curve or arc with both of its ends;
* `Pen`, `Pen.draw` : the pen and one command of it;
* `Element.ofPath` : the elements of a path string;
* `totalLength` : the drawn length.
-/

namespace EdaParts

/-- One element of a drawn path, in absolute coordinates. -/
inductive Element where
  | move (p : Point)
  | line (start stop : Point)
  | close (start stop : Point)
  | cubic (start c1 c2 stop : Point)
  | quadratic (start c stop : Point)
  | arc (arc : Arc)

namespace Element

def start : Element → Point
  | move p => p
  | line p _ | close p _ => p
  | cubic p _ _ _ => p
  | quadratic p _ _ => p
  | arc a => a.start

def stop : Element → Point
  | move p => p
  | line _ p | close _ p => p
  | cubic _ _ _ p => p
  | quadratic _ _ p => p
  | arc a => a.stop

/-- A move draws nothing. -/
def isMove : Element → Bool
  | move _ => true
  | _ => false

/-- Bezier curves and arcs are curves. -/
def isCurve : Element → Bool
  | cubic .. | quadratic .. | arc _ => true
  | _ => false

def length : Element → Float
  | move _ => 0
  | line p q | close p q => p.distance q
  | cubic p0 p1 p2 p3 => Bezier.cubicLength p0 p1 p2 p3
  | quadratic p0 p1 p2 => Bezier.quadraticLength p0 p1 p2
  | arc a => a.length

end Element

def totalLength (elements : List Element) : Float :=
  elements.foldl (fun total e => total + e.length) 0

/-- Where the pen is, where its subpath began, and the control point that a smooth curve of third
or second degree would continue. -/
structure Pen where
  position : Point
  origin : Point
  lastCubic : Option Point
  lastQuadratic : Option Point

namespace Pen

/-- The pen before the first command. -/
def initial : Pen := ⟨.zero, .zero, none, none⟩

/-- A point of a command, counted from the pen's position if it is relative. -/
def resolve (pen : Pen) (relative : Bool) (p : Point) : Point :=
  if relative then pen.position + p else p

/-- The first control point of a smooth curve: the image of the last one in the pen's position, or
that position itself. -/
def smooth (pen : Pen) (last : Option Point) : Point :=
  match last with
  | some c => c.reflect pen.position
  | none => pen.position

/-- The pen moved to `p` within its subpath. -/
def goTo (pen : Pen) (p : Point) : Pen :=
  ⟨p, pen.origin, none, none⟩

/-- Draws one command: the pen afterwards, and the element drawn. An arc without a center form is a
line, and nothing between equal ends. -/
def draw (pen : Pen) : Segment → Pen × Option Element
  | .move relative p =>
    let p := pen.resolve relative p
    (⟨p, p, none, none⟩, some (.move p))
  | .line relative p =>
    let p := pen.resolve relative p
    (pen.goTo p, some (.line pen.position p))
  | .horizontal relative x =>
    let p : Point := ⟨if relative then pen.position.x + x else x, pen.position.y⟩
    (pen.goTo p, some (.line pen.position p))
  | .vertical relative y =>
    let p : Point := ⟨pen.position.x, if relative then pen.position.y + y else y⟩
    (pen.goTo p, some (.line pen.position p))
  | .cubic relative c1 c2 p =>
    let c1 := pen.resolve relative c1
    let c2 := pen.resolve relative c2
    let p := pen.resolve relative p
    ({ pen.goTo p with lastCubic := some c2 }, some (.cubic pen.position c1 c2 p))
  | .smoothCubic relative c2 p =>
    let c1 := pen.smooth pen.lastCubic
    let c2 := pen.resolve relative c2
    let p := pen.resolve relative p
    ({ pen.goTo p with lastCubic := some c2 }, some (.cubic pen.position c1 c2 p))
  | .quadratic relative c p =>
    let c := pen.resolve relative c
    let p := pen.resolve relative p
    ({ pen.goTo p with lastQuadratic := some c }, some (.quadratic pen.position c p))
  | .smoothQuadratic relative p =>
    let c := pen.smooth pen.lastQuadratic
    let p := pen.resolve relative p
    ({ pen.goTo p with lastQuadratic := some c }, some (.quadratic pen.position c p))
  | .arc relative rx ry rotation large sweep p =>
    let p := pen.resolve relative p
    let drawn :=
      match Arc.ofEnds? pen.position p rx ry (Binary64.radians rotation) large sweep with
      | some a => some (.arc a)
      | none => if pen.position.same p then none else some (.line pen.position p)
    (pen.goTo p, drawn)
  | .close => (pen.goTo pen.origin, some (.close pen.position pen.origin))

def drawAll (pen : Pen) : List Segment → List Element
  | [] => []
  | s :: ss =>
    match pen.draw s with
    | (pen, some e) => e :: pen.drawAll ss
    | (pen, none) => pen.drawAll ss

end Pen

namespace Element

/-- The elements of a path string, at least one. -/
def ofPath (text : String) : Except PathError (List Element) := do
  let elements := Pen.initial.drawAll (← Segment.read text)
  if elements.isEmpty then .error .empty else .ok elements

end Element

end EdaParts
