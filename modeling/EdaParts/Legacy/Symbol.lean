import EdaParts.Legacy.Line
import EdaParts.Symbol.Basic

/-!
# Symbols as lines

An entry of a library is a banner of comments, the symbol's name and settings, a line for each
field, and a line for each graphic. Lengths are in mils.
-/

namespace EdaParts.Legacy

open Word

def coordinates (p : MilPoint) : Line := [integer p.x, integer p.y]

/-- The coordinates of points; the place of no points at all stays empty. -/
def pointList : List MilPoint → Line
  | [] => [bare ""]
  | points => points.flatMap coordinates

/-- The angle in degrees at which a point is seen from another one. -/
def angleFrom (center p : MilPoint) : Float :=
  Binary64.degrees
    (Float.atan2 (Float.ofInt p.y - Float.ofInt center.y) (Float.ofInt p.x - Float.ofInt center.x))

/-- The ends of an arc in the order that runs counter-clockwise from the first to the second through
the middle. -/
def counterClockwise (center start mid stop : MilPoint) : MilPoint × MilPoint :=
  let origin := angleFrom center start
  let turn (p : MilPoint) := Binary64.residue (angleFrom center p - origin) 360
  if turn mid ≤ turn stop then (start, stop) else (stop, start)

/-- The letter for the type of a pin. -/
def pinType : PinType → String
  | .unspecified => "U"
  | .input => "I"
  | .output => "O"
  | .bidirectional => "B"
  | .powerIn => "W"

/-- The letter for the orientation of a pin. -/
def pinOrientation : PinOrientation → String
  | .right => "R"
  | .up => "U"
  | .left => "L"
  | .down => "D"

/-- The size of the texts of a pin, and of fields. -/
def pinTextSize : Int := 40

@[inherit_doc pinTextSize]
def fieldTextSize : Int := 50

/-- The line of a field. The first four go by number alone, and the others by name as well. -/
def field (f : SymbolField) : Line :=
  [bare ("F" ++ toString f.key.number), quoted f.value] ++ coordinates f.position ++
    [integer fieldTextSize, bare "H", bare (if f.visible then "V" else "I"),
     bare (if f.leftJustified then "L" else "C"), bare "CNN"] ++
    f.key.legacyName?.toList.map quoted

def graphic (part : Nat) : Graphic → Line
  | .rectangle start stop =>
    bare "S" :: coordinates start ++ coordinates stop ++ [integer part] ++ bareWords ["0", "0", "f"]
  | .circle center radius =>
    bare "C" :: coordinates center ++ [integer radius, integer part] ++ bareWords ["0", "0", "N"]
  | .polyline points filled =>
    [bare "P", integer points.length, integer part] ++ bareWords ["0", "0"] ++ pointList points ++
      [bare (if filled then "f" else "N")]
  | .arc center radius start mid stop =>
    let (first, last) := counterClockwise center start mid stop
    bare "A" :: coordinates center ++
      [integer radius, tenths (angleFrom center first), tenths (angleFrom center last),
       integer part] ++ bareWords ["0", "0", "N"] ++ coordinates first ++ coordinates last
  | .bezier p0 p1 p2 p3 =>
    [bare "B", bare "4", integer part] ++ bareWords ["0", "0"] ++ pointList [p0, p1, p2, p3] ++
      [bare "N"]
  | .text text position angle size hidden =>
    [bare "T", integer angle] ++ coordinates position ++
      [integer size, bare (if hidden then "1" else "0"), integer part, bare "0", free text] ++
      bareWords ["Normal", "0", "C", "C"]
  | .pin p =>
    [bare "X", free p.name, free p.number] ++ coordinates p.position ++
      [integer p.length, bare (pinOrientation p.orientation), integer pinTextSize,
       integer pinTextSize, integer part, bare "0", bare (pinType p.type)]

def symbol (s : Symbol) : List Line :=
  [[bare "#"], [bare "#", bare s.name], [bare "#"],
   [bare "DEF", bare s.name, bare s.designator] ++ bareWords ["0", "40", "Y", "Y"] ++
    [integer s.part] ++ bareWords ["F", "N"]] ++
  s.fields.map field ++ [[bare "DRAW"]] ++ s.graphics.map (graphic s.part) ++
  [[bare "ENDDRAW"], [bare "ENDDEF"]]

def symbolEntry (s : Symbol) : String := print (symbol s)

/-- What stands before the entries of a library. -/
def libraryHeader : String :=
  print [bareWords ["EESchema-LIBRARY", "Version", "2.4"], bareWords ["#encoding", "utf-8"]]

/-- What stands after the entries of a library. -/
def libraryFooter : String :=
  print [[bare "#"], bareWords ["#End", "Library"]]

end EdaParts.Legacy
