/-!
# Flaws of documents

A text that is not the document it should be has a first flaw: what is wrong, and where that shows.
Readers give a flaw by the text that is left (`Flaw`); a message gives it by line and column
(`ReadError`).

* `Cause` : what is wrong, with its wording;
* `Flaw.locate` : the place of a flaw in the whole text. Lines count from one. Columns count bytes
  of UTF-8 from the beginning of the line, so that they may point into a character.
-/

namespace EdaParts.Json

/-- What is wrong with a document. -/
inductive Cause where
  /-- The text ends within an array, an object, a string, or before a value. -/
  | endInArray
  | endInObject
  | endInString
  | endInValue
  /-- Something else stands where a certain character or word is due. -/
  | colonDue
  | itemDividerDue
  | memberDividerDue
  | wordDue
  | valueDue
  | nameDue
  /-- A comma has nothing after it. -/
  | trailingComma
  /-- Something stands after the end. -/
  | trailingText
  /-- A backslash, or what follows it, stands for no character. -/
  | badEscape
  /-- A control character stands in a string. -/
  | controlCharacter
  /-- A code unit that is one half of a pair stands without the other half. -/
  | loneSurrogate
  | brokenPair
  /-- The characters spell no number, or one beyond every double. -/
  | badNumber
  | numberTooLarge
  /-- Arrays and objects are nested too deep. -/
  | tooDeep
  /-- The value is of another kind than expected, or a name that is not known. -/
  | wrongKind (found expected : String)
  | unknownName (name expected : String)
  /-- The array has too few items for a record. -/
  | wrongLength (length : Nat) (expected : String)
  /-- A record lacks a field, or has one twice. -/
  | missingField (name : String)
  | repeatedField (name : String)
  deriving Repr, DecidableEq

def Cause.message : Cause → String
  | endInArray => "EOF while parsing a list"
  | endInObject => "EOF while parsing an object"
  | endInString => "EOF while parsing a string"
  | endInValue => "EOF while parsing a value"
  | colonDue => "expected `:`"
  | itemDividerDue => "expected `,` or `]`"
  | memberDividerDue => "expected `,` or `\x7d`"
  | wordDue => "expected ident"
  | valueDue => "expected value"
  | nameDue => "key must be a string"
  | trailingComma => "trailing comma"
  | trailingText => "trailing characters"
  | badEscape => "invalid escape"
  | controlCharacter =>
    "control character (\\u0000-\\u001F) found while parsing a string"
  | loneSurrogate => "lone leading surrogate in hex escape"
  | brokenPair => "unexpected end of hex escape"
  | badNumber => "invalid number"
  | numberTooLarge => "number out of range"
  | tooDeep => "recursion limit exceeded"
  | wrongKind found expected => "invalid type: " ++ found ++ ", expected " ++ expected
  | unknownName name expected => "unknown variant `" ++ name ++ "`, expected " ++ expected
  | wrongLength length expected => s!"invalid length {length}, expected " ++ expected
  | missingField name => "missing field `" ++ name ++ "`"
  | repeatedField name => "duplicate field `" ++ name ++ "`"

/-- A cause, by the text that is left and the bytes of it that belong to the flaw. -/
structure Flaw where
  cause : Cause
  left : List Char
  taken : Nat
  deriving Repr, DecidableEq

namespace Flaw

/-- A flaw that shows before the text that is left. -/
def before (cause : Cause) (left : List Char) : Flaw := ⟨cause, left, 0⟩

/-- A flaw that the first character left belongs to, if there is one. -/
def within (cause : Cause) (left : List Char) : Flaw := ⟨cause, left, 1⟩

end Flaw

/-- The bytes of a text in UTF-8. -/
def byteCount (cs : List Char) : Nat :=
  cs.foldl (fun n c => n + c.utf8Size) 0

/-- The line and column after a number of bytes of the text, counted on from a line and column. -/
def placeFrom (line column : Nat) : List Char → (bytes : Nat) → Nat × Nat
  | [], bytes => (line, column + bytes)
  | c :: cs, bytes =>
    if bytes < c.utf8Size then (line, column + bytes)
    else if c = '\n' then placeFrom (line + 1) 0 cs (bytes - c.utf8Size)
    else placeFrom line (column + c.utf8Size) cs (bytes - c.utf8Size)

/-- A flaw by its place in the whole text. -/
structure ReadError where
  cause : Cause
  line : Nat
  column : Nat
  deriving Repr, DecidableEq

/-- The wording of a flaw and its place. -/
def ReadError.message (e : ReadError) : String :=
  e.cause.message ++ s!" at line {e.line} column {e.column}"

/-- The flaw by its place in `text`, of which it leaves the end. -/
def Flaw.locate (text : List Char) (f : Flaw) : ReadError :=
  let size := byteCount text
  let (line, column) := placeFrom 1 0 text (min size (size - byteCount f.left + f.taken))
  ⟨f.cause, line, column⟩

end EdaParts.Json
