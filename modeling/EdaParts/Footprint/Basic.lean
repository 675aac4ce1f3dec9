import EdaParts.Geometry.Point
import EdaParts.Layer

/-!
# Footprints

A footprint is what a part needs on the board: pads, lines of the drawing around them, texts, and
possibly a model in three dimensions. All lengths are in millimetres and y points down, but in
models, where it points up.
-/

namespace EdaParts

/-- Three numbers along or about the axes of space. -/
structure Triple where
  x : Float
  y : Float
  z : Float
  deriving Inhabited

/-- A model in three dimensions: its file, where it stands and how it is turned, in degrees. -/
structure ModelRef where
  path : String
  offset : Triple
  rotation : Triple
  deriving Inhabited

/-- The outline of a pad. -/
inductive PadShape where
  | circle
  | rect
  | oval
  | custom
  deriving Repr, DecidableEq

/-- How a pad is mounted. -/
inductive Mounting where
  | surface
  | throughHole
  deriving Repr, DecidableEq

/-- The hole of a pad. -/
inductive Drill where
  | round (diameter : Float)
  | slot (width height : Float)

/-- A pad. The vertices of a custom outline count from its position. -/
structure Pad where
  number : String
  mounting : Mounting
  shape : PadShape
  position : Point
  size : Point
  rotation : Float
  layers : List Layer
  drill : Option Drill
  outline : List Point

/-- One thing on the board. The angle of an arc is its sweep from start to stop, in degrees. -/
inductive Primitive where
  | line (start stop : Point) (width : Float) (layer : Layer)
  | arc (center start mid stop : Point) (angle width : Float) (layer : Layer)
  | circle (center : Point) (radius width : Float) (layer : Layer)
  | rect (start stop : Point) (width : Float) (layer : Layer)
  | pad (pad : Pad)

/-- The same thing moved by a vector. A custom outline moves with its pad. -/
def Primitive.translate (v : Point) : Primitive → Primitive
  | line start stop width layer => line (start + v) (stop + v) width layer
  | arc center start mid stop angle width layer =>
    arc (center + v) (start + v) (mid + v) (stop + v) angle width layer
  | circle center radius width layer => circle (center + v) radius width layer
  | rect start stop width layer => rect (start + v) (stop + v) width layer
  | pad p => pad { p with position := p.position + v }

def Primitive.pad? : Primitive → Option Pad
  | pad p => some p
  | _ => none

/-- What a text is for. -/
inductive TextRole where
  | reference
  | value
  | user
  deriving Repr, DecidableEq

/-- A text on the board. -/
structure BoardText where
  role : TextRole
  text : String
  position : Point
  layer : Layer

/-- A footprint. -/
structure Footprint where
  name : String
  description : String
  primitives : List Primitive
  texts : List BoardText
  model : Option ModelRef

namespace Footprint

/-- The pads in order. -/
def pads (f : Footprint) : List Pad :=
  f.primitives.filterMap Primitive.pad?

/-- How the part is assembled: through holes if any pad has one, on the surface if there are pads
and none has, and unknown without pads. -/
def assembly (f : Footprint) : Option Mounting :=
  if f.pads.any (·.mounting = .throughHole) then some .throughHole
  else if f.pads.isEmpty then none
  else some .surface

end Footprint

end EdaParts
