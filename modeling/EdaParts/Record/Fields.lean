import EdaParts.Decimal.Reader
import EdaParts.Geometry.Point
import EdaParts.Record.Skip
import EdaParts.Text.Blank

/-!
# Fields of a record

Fields are read by position, as text, as a finite number, or as a list of points. A failed reading
names the kind of the record and the position of the field.
-/

namespace EdaParts

/-- The fields of a record and the kind they are read for. -/
structure Fields where
  kind : String
  values : List String

/-- The finite number that a text spells, blanks at its ends left out. -/
def finiteNumber? (cs : List Char) : Option Float :=
  (Decimal.readFloat? (Text.trim cs)).filter Float.isFinite

namespace Fields

def get? (f : Fields) (index : Nat) : Option String :=
  f.values[index]?

def text (f : Fields) (index : Nat) : Except Skip String :=
  match f.get? index with
  | some s => .ok s
  | none => .error (.missingField f.kind index)

/-- The value of a text in the field at a position. -/
def numberIn (f : Fields) (index : Nat) (cs : List Char) : Except Skip Float :=
  match finiteNumber? cs with
  | some x => .ok x
  | none => .error (.badNumber f.kind index (String.ofList cs))

/-- The field at a position as a finite number. -/
def number (f : Fields) (index : Nat) : Except Skip Float := do
  f.numberIn index (← f.text index).toList

/-- The field at a position as a finite number, if the record has it. -/
def number? (f : Fields) (index : Nat) : Except Skip (Option Float) :=
  match f.get? index with
  | some s => some <$> f.numberIn index s.toList
  | none => .ok none

/-- Consecutive numbers as points; an odd one at the end is left out. -/
def pairUp : List Float → List Point
  | x :: y :: rest => ⟨x, y⟩ :: pairUp rest
  | _ => []

/-- The field at a position as coordinates between blanks, paired up. -/
def points (f : Fields) (index : Nat) : Except Skip (List Point) := do
  let values ← (Text.words (← f.text index).toList).mapM (f.numberIn index)
  return pairUp values

end Fields

end EdaParts
