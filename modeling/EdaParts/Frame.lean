import EdaParts.Binary64
import EdaParts.Checked
import EdaParts.Decimal.Notation
import EdaParts.Geometry.Point

/-!
# Frames

A frame takes canvas coordinates to those of the output. Board frames give millimetres to two
places with y pointing down, as on the canvas; schematic frames give whole mils with y pointing
up. One canvas unit is ten mils.

* `roundTo`, `numberText` : rounding to a number of places, and the text of a rounded number;
* `MilPoint` : a point of a schematic;
* `Frame` : an origin and a scale, with the images of points and of lengths.
-/

namespace EdaParts

/-- The double nearest to a value at a number of decimal places, where places below zero count tens:
a half goes away from zero, and zero carries no sign. -/
def roundTo (places : Int32) (x : Float) : Float :=
  let factor := Binary64.power 10 places
  let rounded := Binary64.rounded (x * factor) / factor
  if rounded == 0 then 0 else rounded

/-- A number as the library files write it: at most four places, never an exponent. -/
def numberText (x : Float) : String :=
  Decimal.plain (roundTo 4 x)

/-- One mil in millimetres. -/
def millimetresPerMil : Float := 0.0254

/-- The places of board coordinates in millimetres. -/
def boardPlaces : Int32 := 2

/-- Whole mils in millimetres, to four places. -/
def millimetres (mils : Int) : Float :=
  roundTo 4 (Float.ofInt mils * millimetresPerMil)

/-- A point of a schematic in mils, y pointing up. -/
structure MilPoint where
  x : Int
  y : Int
  deriving Inhabited, Repr, DecidableEq

def MilPoint.toPoint (p : MilPoint) : Point :=
  ⟨millimetres p.x, millimetres p.y⟩

/-- An origin on the canvas and the length of one canvas unit in the output. -/
structure Frame where
  origin : Point
  scale : Float

namespace Frame

def board (origin : Point) : Frame :=
  ⟨origin, 10 * millimetresPerMil⟩

/-- The frame of a schematic at a scale of mils to the canvas unit. -/
def schematic (origin : Point) (scale : Float) : Frame :=
  ⟨origin, scale⟩

def point (f : Frame) (p : Point) : Point :=
  ⟨roundTo boardPlaces ((p.x - f.origin.x) * f.scale),
   roundTo boardPlaces ((p.y - f.origin.y) * f.scale)⟩

def length (f : Frame) (x : Float) : Float :=
  roundTo boardPlaces (x * f.scale)

/-- The height of a point in mils: cut toward zero, then turned over so that it points up. -/
def height (f : Frame) (p : Point) : Checked :=
  -Checked.given (Binary64.truncated ((p.y - f.origin.y) * f.scale))

/-- A point in mils, its coordinates cut toward zero. -/
def mils (f : Frame) (p : Point) : MilPoint :=
  ⟨Binary64.truncated ((p.x - f.origin.x) * f.scale), (f.height p).value⟩

/-- A length in mils, cut toward zero. -/
def milLength (f : Frame) (x : Float) : Int :=
  Binary64.truncated (x * f.scale)

end Frame

end EdaParts
