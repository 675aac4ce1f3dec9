import EdaParts.Path.Element

/-!
# Elements in messages

A message that turns down a path says which element stood in the wrong place, field by field.
-/

namespace EdaParts

/-- Coordinates in messages have an exponent below `10 ^ -4`, and of two equally near spellings the
larger one. -/
def coordinateSpelling : Decimal.Spelling := ⟨-4, .up⟩

/-- The coordinates of a point in a message. -/
def Point.describe (p : Point) : String :=
  "(" ++ Decimal.spelled coordinateSpelling p.x ++ ", " ++
    Decimal.spelled coordinateSpelling p.y ++ ")"

namespace Element

/-- Fields by name, between brackets. -/
def describeFields (fields : List (String × Point)) : String :=
  " \x7b " ++ ", ".intercalate (fields.map fun (name, p) => name ++ ": " ++ p.describe) ++ " \x7d"

/-- The element, kind first. -/
def describe : Element → String
  | move p => "Move(" ++ p.describe ++ ")"
  | line p q => "Line" ++ describeFields [("start", p), ("end", q)]
  | close p q => "Close" ++ describeFields [("start", p), ("end", q)]
  | cubic p0 p1 p2 p3 =>
    "Cubic(CubicBez" ++ describeFields [("p0", p0), ("p1", p1), ("p2", p2), ("p3", p3)] ++ ")"
  | quadratic p0 p1 p2 =>
    "Quadratic(QuadBez" ++ describeFields [("p0", p0), ("p1", p1), ("p2", p2)] ++ ")"
  | arc a => "Arc" ++ describeFields [("start", a.start), ("end", a.stop), ("center", a.center)]

/-- An element that may be missing. -/
def describeOption : Option Element → String
  | some e => "Some(" ++ e.describe ++ ")"
  | none => "None"

end Element

end EdaParts
