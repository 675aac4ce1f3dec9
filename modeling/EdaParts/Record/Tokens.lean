import EdaParts.Text.Split

/-!
# Records

A shape of a vendor document is a line of fields between tildes: a tag, and the fields of its
kind. Blank fields are dropped, so that the positions of later fields move up.

* `Record.ofLine?` : the record of a line, unless it consists of tildes only;
* `Record.toLine` : the line without blank fields.
-/

namespace EdaParts

/-- A tag and the fields after it, none of them empty. -/
structure Record where
  tag : String
  fields : List String
  deriving Repr, DecidableEq

namespace Record

/-- The character between fields. -/
def separator : Char := '~'

/-- The parts of a line that are not empty. -/
def parts (line : String) : List String :=
  ((Text.pieces separator line.toList).filter (!·.isEmpty)).map String.ofList

/-- The record of a line: its first part that is not empty, and the others. -/
def ofLine? (line : String) : Option Record :=
  match parts line with
  | [] => none
  | tag :: fields => some ⟨tag, fields⟩

/-- The line with one tilde between fields. -/
def toLine (r : Record) : String :=
  String.ofList (Text.join separator ((r.tag :: r.fields).map String.toList))

end Record

end EdaParts
