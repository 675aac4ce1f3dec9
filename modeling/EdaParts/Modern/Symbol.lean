import EdaParts.Modern.Expr
import EdaParts.Symbol.Basic

/-!
# Symbols as nested expressions

A symbol is an expression of its properties and of one unit with its graphics. Mils become
millimetres here.
-/

namespace EdaParts.Modern

open Modern.Expr

def length (mils : Int) : Expr :=
  number (millimetres mils)

def coordinates (p : MilPoint) : List Expr :=
  [number p.toPoint.x, number p.toPoint.y]

def pointList (points : List MilPoint) : Expr :=
  list "pts" (points.map fun p => list "xy" (coordinates p))

def font (size : Expr) : Expr :=
  list "font" [list "size" [size, size]]

/-- The font of properties and pins. -/
def standardFont : Expr := font (atom "1.27")

/-- The pen that graphics are drawn with. -/
def pen : Expr :=
  list "stroke"
    [list "width" [atom "0.254"], list "type" [atom "default"],
     list "color" [atom "0", atom "0", atom "0", atom "0"]]

/-- How an area is filled. -/
def fill (style : String) : Expr :=
  list "fill" [list "type" [atom style]]

/-- A mark on what cannot be seen. -/
def hiddenMark (hidden : Bool) : List Expr :=
  if hidden then [atom "hide"] else []

def property (f : SymbolField) : Expr :=
  let justified := if f.leftJustified then [list "justify" [atom "left"]] else []
  list "property"
    [quoted f.key.propertyName, quoted f.value, list "id" [natural f.key.number],
     list "at" (coordinates f.position ++ [atom "0"]),
     list "effects" (standardFont :: justified ++ hiddenMark (!f.visible))]

def pinType : PinType → String
  | .input => "input"
  | .output => "output"
  | .bidirectional => "bidirectional"
  | .powerIn => "power_in"
  | .unspecified => "unspecified"

def pinAngle : PinOrientation → Nat
  | .right => 0
  | .up => 90
  | .left => 180
  | .down => 270

/-- The name of a pin; a tilde before other characters draws a bar over them. -/
def pinName (name : String) : String :=
  match name.toList with
  | '~' :: c :: cs => String.ofList ('~' :: '\x7b' :: c :: cs ++ ['\x7d'])
  | _ => name

def pin (p : Pin) : Expr :=
  let effects := list "effects" [standardFont]
  block "pin"
    [atom (pinType p.type), atom "line",
     list "at" (coordinates p.position ++ [natural (pinAngle p.orientation)]),
     list "length" [length p.length]]
    [list "name" [quoted (pinName p.name), effects], list "number" [quoted p.number, effects]]

def graphic : Graphic → Expr
  | .rectangle start stop =>
    list "rectangle"
      [list "start" (coordinates start), list "end" (coordinates stop), pen, fill "background"]
  | .circle center radius =>
    list "circle"
      [list "center" (coordinates center), list "radius" [length radius], pen, fill "none"]
  | .polyline points filled =>
    list "polyline" [pointList points, pen, fill (if filled then "outline" else "none")]
  | .arc _ _ start mid stop =>
    list "arc"
      [list "start" (coordinates start), list "mid" (coordinates mid),
       list "end" (coordinates stop), pen, fill "none"]
  | .bezier p0 p1 p2 p3 => list "bezier" [pointList [p0, p1, p2, p3], pen, fill "none"]
  | .text text position angle size hidden =>
    list "text"
      [quoted text, list "at" (coordinates position ++ [number (Float.ofInt angle / 10)]),
       list "effects"
        (font (number (Float.ofInt size * millimetresPerMil)) :: hiddenMark hidden)]
  | .pin p => pin p

def symbol (s : Symbol) : Expr :=
  let unit := s.name ++ "_" ++ toString s.part ++ "_1"
  block "symbol"
    [quoted s.name, list "in_bom" [atom "yes"], list "on_board" [atom "yes"]]
    (s.fields.map property ++ [block "symbol" [quoted unit] (s.graphics.map graphic)])

def symbolEntry (s : Symbol) : String :=
  (symbol s).print 0 ++ "\n"

/-- What stands before the entries of a library. -/
def libraryHeader : String :=
  "(kicad_symbol_lib " ++ version.print 0 ++ " " ++ generator.print 0 ++ "\n"

/-- What stands after the entries of a library. -/
def libraryFooter : String := ")\n"

end EdaParts.Modern
