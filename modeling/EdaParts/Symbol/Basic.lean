import EdaParts.Frame
import EdaParts.Text.Blank

/-!
# Symbols

A symbol stands for a part on the schematic: pins, the graphics of its body, and fields of text.
All lengths are in mils and y points up.
-/

namespace EdaParts

/-- What a pin does electrically. -/
inductive PinType where
  | unspecified
  | input
  | output
  | bidirectional
  | powerIn
  deriving Repr, DecidableEq

/-- The type of a vendor code, blanks at its ends left out. -/
def PinType.ofCode (code : String) : PinType :=
  match Text.trimmed code with
  | "1" => input
  | "2" => output
  | "3" => bidirectional
  | "4" => powerIn
  | _ => unspecified

/-- Where a pin points from its connection point. -/
inductive PinOrientation where
  | right
  | up
  | left
  | down
  deriving Repr, DecidableEq

/-- A side of the body. -/
inductive Side where
  | left
  | right
  | top
  | bottom
  deriving Repr, DecidableEq

/-- The orientation of a vendor angle, blanks at its ends left out, with the side of the body on
which the pin is wired. -/
def PinOrientation.ofAngle? (code : String) : Option (PinOrientation × Side) :=
  match Text.trimmed code with
  | "0" => some (left, .right)
  | "180" => some (right, .left)
  | "90" => some (down, .top)
  | "270" => some (up, .bottom)
  | _ => none

/-- The sides of the body on which pins are wired. -/
structure WiredSides where
  left : Bool
  right : Bool
  top : Bool
  bottom : Bool
  deriving Repr, DecidableEq

namespace WiredSides

def none : WiredSides := ⟨false, false, false, false⟩

def insert (w : WiredSides) : Side → WiredSides
  | .left => { w with left := true }
  | .right => { w with right := true }
  | .top => { w with top := true }
  | .bottom => { w with bottom := true }

def count (w : WiredSides) : Nat :=
  [w.left, w.right, w.top, w.bottom].count true

end WiredSides

/-- A pin. -/
structure Pin where
  name : String
  number : String
  type : PinType
  position : MilPoint
  length : Int
  orientation : PinOrientation
  deriving Repr, DecidableEq

/-- One thing of a symbol. The angle of a text is in tenths of a degree. -/
inductive Graphic where
  | rectangle (start stop : MilPoint)
  | circle (center : MilPoint) (radius : Int)
  | polyline (points : List MilPoint) (filled : Bool)
  | arc (center : MilPoint) (radius : Int) (start mid stop : MilPoint)
  | bezier (p0 p1 p2 p3 : MilPoint)
  | text (text : String) (position : MilPoint) (angle size : Int) (hidden : Bool)
  | pin (pin : Pin)
  deriving Repr, DecidableEq

def Graphic.pin? : Graphic → Option Pin
  | pin p => some p
  | _ => none

/-- What a field of a symbol says. -/
inductive FieldKey where
  | reference
  | value
  | footprint
  | datasheet
  | lcscId
  | description
  | category
  | manufacturer
  deriving Repr, DecidableEq

namespace FieldKey

def all : List FieldKey :=
  [reference, value, footprint, datasheet, lcscId, description, category, manufacturer]

def number : FieldKey → Nat
  | reference => 0
  | value => 1
  | footprint => 2
  | datasheet => 3
  | lcscId => 4
  | description => 5
  | category => 6
  | manufacturer => 7

/-- The name of the property in the modern format. -/
def propertyName : FieldKey → String
  | reference => "Reference"
  | value => "Value"
  | footprint => "Footprint"
  | datasheet => "Datasheet"
  | lcscId => "LC#"
  | description => "Description"
  | category => "Category"
  | manufacturer => "Manufacturer"

/-- The name of the field in the legacy format, where the first four go by their numbers alone. -/
def legacyName? : FieldKey → Option String
  | lcscId => some "LC#"
  | description => some "Description"
  | category => some "Category"
  | manufacturer => some "manufacturer"
  | reference | value | footprint | datasheet => none

end FieldKey

/-- A field of a symbol. Its text is centered on its position unless it begins there. -/
structure SymbolField where
  key : FieldKey
  value : String
  position : MilPoint
  visible : Bool
  leftJustified : Bool
  deriving Repr, DecidableEq

/-- A symbol. -/
structure Symbol where
  name : String
  designator : String
  part : Nat
  fields : List SymbolField
  graphics : List Graphic
  deriving Repr, DecidableEq

/-- The pins in order. -/
def Symbol.pins (s : Symbol) : List Pin :=
  s.graphics.filterMap Graphic.pin?

end EdaParts
