import EdaParts.Json.Flaw
import EdaParts.Notice
import EdaParts.Path.Segment

/-!
# Why records are skipped

A record that cannot be drawn is left out, and nothing else is: each cause says how its line of the
log reads and how much it matters.
-/

namespace EdaParts

/-- Why a record is left out of a drawing. -/
inductive Skip where
  /-- No kind of record has this tag. -/
  | unknownKind (tag : String)
  /-- The record has no field at this position. -/
  | missingField (kind : String) (index : Nat)
  /-- The field, or the part of it that is given, is no finite number. -/
  | badNumber (kind : String) (index : Nat) (value : String)
  /-- The path string of the record has a flaw. -/
  | badPath (kind : String) (error : PathError)
  /-- The path is sound and does not have the shape that the record needs. -/
  | pathShape (kind : String) (detail : String)
  /-- The document within the record cannot be read. -/
  | badDocument (kind : String) (error : Json.ReadError)
  /-- Records of this kind cannot be drawn. -/
  | unsupported (kind : String)
  /-- Records of this kind draw nothing in the output. -/
  | inert (kind : String)
  /-- The record is covered by another one. -/
  | suppressed (detail : String)
  deriving Repr, DecidableEq

namespace Skip

/-- The wording of the cause. -/
def message : Skip → String
  | unknownKind tag => s!"unknown record kind '{tag}'"
  | missingField kind index => s!"{kind}: missing field {index}"
  | badNumber kind index value => s!"{kind}: field {index} is not a number: '{value}'"
  | badPath kind error => s!"{kind}: path parse failed: " ++ error.message
  | pathShape kind detail => s!"{kind}: unexpected path shape: {detail}"
  | badDocument kind error => s!"{kind}: bad embedded JSON: " ++ error.message
  | unsupported kind => s!"{kind} not supported"
  | inert kind => s!"{kind} intentionally not reproduced"
  | suppressed detail => detail

/-- How much it matters that the record is left out: broken records are errors, strange ones
warnings, and those that are meant to leave no trace are of interest to nobody. -/
def level : Skip → Level
  | unknownKind _ | unsupported _ | pathShape .. => .warn
  | inert _ | suppressed _ => .debug
  | missingField .. | badNumber .. | badPath .. | badDocument .. => .error

/-- The line of the log for a record left out of `drawing`. -/
def notice (drawing : String) (s : Skip) : Notice :=
  ⟨s.level, s!"{drawing}: skipping record: " ++ s.message⟩

end Skip

/-- The outcome of reading a record: a result or the cause to skip it, with the notices given on
the way. -/
abbrev Reading := ExceptT Skip Logged

/-- Gives one notice while reading a record. -/
def Reading.note (level : Level) (text : String) : Reading Unit :=
  ExceptT.lift (Logged.note level text)

end EdaParts
