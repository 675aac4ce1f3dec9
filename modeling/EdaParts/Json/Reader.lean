import EdaParts.Decimal.Reader
import EdaParts.Json.Flaw
import EdaParts.Json.Number
import EdaParts.Text.Literal

/-!
# Reading documents

A reader takes a document from the front of a text and gives what it stands for with the text that
is left, or the first flaw. Strings and numbers may also be skipped; less is asked of those, since
nobody looks at what they stand for.

* `Reader` : the type of readers;
* `quoted`, `skipQuoted`, `number`, `skipNumber` : strings, after their opening quote, and numbers;
* `nextItem`, `nextName` : the way through arrays and objects;
* `text`, `bool`, `float`, `integer`, `choice`, `optional` : documents of an expected kind;
* `Reader.run` : a reader on a whole text.

Blanks are space, tab, line feed and carriage return alone.
-/

namespace EdaParts.Json

/-- Reads from the front of a text, and gives the text that is left. -/
abbrev Reader (α : Type) := List Char → Except Flaw (α × List Char)

/-- The blanks of documents. -/
def isSpace (c : Char) : Bool :=
  c = ' ' || c = '\t' || c = '\n' || c = '\r'

/-- The text from its first character that is no blank. -/
def skipSpaces (cs : List Char) : List Char :=
  cs.dropWhile isSpace

/-- What follows the letters of a word. -/
def afterWord : (letters : List Char) → List Char → Except Flaw (List Char)
  | [], cs => .ok cs
  | _ :: _, [] => .error (.before .endInValue [])
  | l :: ls, c :: cs => if c = l then afterWord ls cs else .error (.within .wordDue (c :: cs))

/-! ## Strings -/

/-- The value of a hexadecimal digit in either case. -/
def hexValue? (c : Char) : Option Nat :=
  if '0' ≤ c ∧ c ≤ '9' then some (c.toNat - '0'.toNat)
  else if 'a' ≤ c ∧ c ≤ 'f' then some (c.toNat - 'a'.toNat + 10)
  else if 'A' ≤ c ∧ c ≤ 'F' then some (c.toNat - 'A'.toNat + 10)
  else none

/-- The number of the four hexadecimal digits at the front. A flaw among four bytes belongs to all
of them. -/
def hexNumber (cs : List Char) : Except Flaw Nat :=
  if byteCount (cs.take 4) < 4 then .error (.before .endInString [])
  else
    match (cs.take 4).mapM hexValue? with
    | some [a, b, c, d] => .ok (((a * 16 + b) * 16 + c) * 16 + d)
    | _ => .error ⟨.badEscape, cs, 4⟩

/-- The code unit may come first in a pair. -/
def isHighHalf (n : Nat) : Bool := 0xD800 ≤ n && n ≤ 0xDBFF

/-- The code unit may come second in a pair. -/
def isLowHalf (n : Nat) : Bool := 0xDC00 ≤ n && n ≤ 0xDFFF

/-- The character of the code unit in digits at the front, or of a pair of them, and the number of
characters that spell it. -/
def codeEscape (cs : List Char) : Except Flaw (Char × Nat) := do
  let n ← hexNumber cs
  let rest := cs.drop 4
  if isLowHalf n then .error (.before .loneSurrogate rest)
  else if isHighHalf n then
    match rest with
    | '\\' :: 'u' :: rest =>
      let m ← hexNumber rest
      if isLowHalf m then
        .ok (Char.ofNat (0x10000 + (n - 0xD800) * 0x400 + (m - 0xDC00)), 10)
      else .error (.before .loneSurrogate (rest.drop 4))
    | [] | ['\\'] => .error (.before .endInString [])
    | '\\' :: rest => .error (.within .brokenPair rest)
    | rest => .error (.within .brokenPair rest)
  else .ok (Char.ofNat n, 4)

/-- The character that a short escape stands for. -/
def escaped? (c : Char) : Option Char :=
  match c with
  | '"' => some '"'
  | '\\' => some '\\'
  | '/' => some '/'
  | 'b' => some (Char.ofNat 8)
  | 'f' => some (Char.ofNat 12)
  | 'n' => some '\n'
  | 'r' => some '\r'
  | 't' => some '\t'
  | _ => none

/-- The character that an escape stands for, after its backslash, and the number of characters that
spell it there. -/
def escape (cs : List Char) : Except Flaw (Char × Nat) :=
  match cs with
  | [] => .error (.before .endInString [])
  | 'u' :: cs => (fun (e, count) => (e, count + 1)) <$> codeEscape cs
  | c :: _ =>
    match escaped? c with
    | some e => .ok (e, 1)
    | none => .error (.within .badEscape cs)

/-- Control characters stand in a string only as escapes. -/
def isControl (c : Char) : Bool := c.toNat < 0x20

/-- The text of a string up to its closing quote: `done` are the characters before, last first, and
the first `spelled` characters of the text belong to the escape that gave the last of them. -/
def quotedFrom (done : List Char) (spelled : Nat) : Reader String
  | [] => .error (.before .endInString [])
  | c :: cs =>
    match spelled with
    | spelled + 1 => quotedFrom done spelled cs
    | 0 =>
      if c = '"' then .ok (String.ofList done.reverse, cs)
      else if c = '\\' then do
        let (e, spelled) ← escape cs
        quotedFrom (e :: done) spelled cs
      else if isControl c then .error (.within .controlCharacter (c :: cs))
      else quotedFrom (c :: done) 0 cs

/-- The text of a string, after its opening quote. -/
def quoted : Reader String := quotedFrom [] 0

/-- The number of characters of an escape, after its backslash. -/
def escapeLength (cs : List Char) : Except Flaw Nat :=
  match cs with
  | [] => .error (.before .endInString [])
  | 'u' :: cs => (fun _ => 5) <$> hexNumber cs
  | c :: _ => if (escaped? c).isSome then .ok 1 else .error (.within .badEscape cs)

/-- What follows the closing quote of a string, after the rest of an escape. -/
def skipQuotedFrom (spelled : Nat) : List Char → Except Flaw (List Char)
  | [] => .error (.before .endInString [])
  | c :: cs =>
    match spelled with
    | spelled + 1 => skipQuotedFrom spelled cs
    | 0 =>
      if c = '"' then .ok cs
      else if c = '\\' then do skipQuotedFrom (← escapeLength cs) cs
      else if isControl c then .error (.before .controlCharacter (c :: cs))
      else skipQuotedFrom 0 cs

/-- What follows a string, after its opening quote. Code units need not pair. -/
def skipQuoted : List Char → Except Flaw (List Char) := skipQuotedFrom 0

/-! ## Numbers -/

/-- The text begins with a digit. -/
def startsWithDigit (cs : List Char) : Bool :=
  cs.head?.any Char.isDigit

/-- The digits before the point: no digit may follow a leading zero. -/
def wholeDigits (atEnd : Cause) : Reader (List Char)
  | [] => .error (.before atEnd [])
  | '0' :: cs =>
    if startsWithDigit cs then .error (.within .badNumber cs) else .ok (['0'], cs)
  | cs => if startsWithDigit cs then .ok (Decimal.spanDigits cs) else .error (.within .badNumber cs)

def someDigits (atEnd : Cause) : Reader (List Char)
  | [] => .error (.before atEnd [])
  | cs => if startsWithDigit cs then .ok (Decimal.spanDigits cs) else .error (.within .badNumber cs)

/-- The point and the digits that may follow it. -/
def fractionDigits (atEnd : Cause) : Reader (List Char)
  | '.' :: cs => someDigits atEnd cs
  | cs => .ok ([], cs)

/-- The sign and the digits of the exponent, if there is one. -/
def exponentDigits (atEnd : Cause) : Reader (Option (Bool × List Char))
  | c :: cs =>
    if c = 'e' ∨ c = 'E' then do
      let (negative, cs) := Decimal.splitSign cs
      let (ds, cs) ← someDigits atEnd cs
      return (some (negative, ds), cs)
    else .ok (none, c :: cs)
  | [] => .ok (none, [])

/-- The greatest exponent that is looked at as a whole. -/
def greatestExponent : Nat := Nat.pow 2 31 - 1

/-- The digits after those that first spell more than the greatest exponent, if they do. -/
def excessDigits : (n : Nat) → List Char → Option (List Char)
  | _, [] => none
  | n, d :: ds =>
    let n := Decimal.digitsValue n [d]
    if greatestExponent < n then some ds else excessDigits n ds

/-- The number at the front, with a cause for a text that ends where a digit is due, and the text
that is left when it is known to be too large. -/
def numeral (atEnd : Cause) : Reader (Numeral × List Char) := fun cs => do
  let (negative, cs) :=
    match cs with
    | '-' :: cs => (true, cs)
    | cs => (false, cs)
  let (whole, cs) ← wholeDigits atEnd cs
  let (fraction, cs) ← fractionDigits atEnd cs
  let (power, cs) ← exponentDigits atEnd cs
  let exponent := power.map fun (negative, ds) =>
    let n : Int := Decimal.digitsValue 0 ds
    if negative then -n else n
  let excess := (power.bind fun (_, ds) => excessDigits 0 ds).getD []
  return ((⟨negative, whole, fraction, exponent⟩, excess ++ cs), cs)

def number : Reader Number := fun cs => do
  let ((n, tooLarge), cs) ← numeral .endInValue cs
  match n.value? with
  | some x => .ok (x, cs)
  | none => .error (.before .numberTooLarge tooLarge)

/-- What follows a number, whatever its size. -/
def skipNumber (cs : List Char) : Except Flaw (List Char) :=
  (·.2) <$> numeral .badNumber cs

def startsNumber (c : Char) : Bool := c = '-' || c.isDigit

/-! ## Arrays and objects -/

/-- The text from the next item of an array on, if there is one; otherwise its closing bracket
follows. -/
def nextItem (first : Bool) (cs : List Char) : Except Flaw (Option (List Char)) :=
  match skipSpaces cs with
  | [] => .error (.before .endInArray [])
  | ']' :: _ => .ok none
  | c :: cs =>
    if first then .ok (some (c :: cs))
    else if c = ',' then
      match skipSpaces cs with
      | [] => .error (.before .endInValue [])
      | ']' :: cs => .error (.within .trailingComma (']' :: cs))
      | cs => .ok (some cs)
    else .error (.within .itemDividerDue (c :: cs))

/-- The next name of an object and what follows it, if there is one; otherwise its closing bracket
follows. -/
def nextName (first : Bool) (cs : List Char) : Except Flaw (Option (String × List Char)) :=
  match skipSpaces cs with
  | [] => .error (.before .endInObject [])
  | '\x7d' :: _ => .ok none
  | c :: cs =>
    if first then
      if c = '"' then some <$> quoted cs else .error (.within .nameDue (c :: cs))
    else if c = ',' then
      match skipSpaces cs with
      | [] => .error (.before .endInValue [])
      | '"' :: cs => some <$> quoted cs
      | '\x7d' :: cs => .error (.within .trailingComma ('\x7d' :: cs))
      | cs => .error (.within .nameDue cs)
    else .error (.within .memberDividerDue (c :: cs))

/-- What follows the colon after a name. -/
def afterColon (cs : List Char) : Except Flaw (List Char) :=
  match skipSpaces cs with
  | [] => .error (.before .endInObject [])
  | ':' :: cs => .ok cs
  | cs => .error (.within .colonDue cs)

/-- What follows the closing bracket of an array or object, whose last item or member stands
before. -/
def afterClosing (cs : List Char) : List Char :=
  (skipSpaces cs).drop 1

/-! ## Expected kinds -/

/-- The flaw of a text that begins with a value of another kind than expected, after blanks. The
value is taken as far as it is a single one. -/
def mismatch (expected : String) (cs : List Char) : Flaw :=
  let found (what : String) (left : List Char) : Flaw := .before (.wrongKind what expected) left
  let flaw : Except Flaw Flaw :=
    match cs with
    | [] => .error (.before .endInValue [])
    | 'n' :: cs => found "null" <$> afterWord ['u', 'l', 'l'] cs
    | 't' :: cs => found "boolean `true`" <$> afterWord ['r', 'u', 'e'] cs
    | 'f' :: cs => found "boolean `false`" <$> afterWord ['a', 'l', 's', 'e'] cs
    | '"' :: cs => (fun (s, cs) => found ("string " ++ Text.literal s) cs) <$> quoted cs
    | '[' :: _ => .ok (found "sequence" cs)
    | '\x7b' :: _ => .ok (found "map" cs)
    | c :: _ =>
      if startsNumber c then (fun (n, cs) => found n.describe cs) <$> number cs
      else .error (.within .valueDue cs)
  match flaw with
  | .ok f => f
  | .error f => f

def text : Reader String := fun cs =>
  match skipSpaces cs with
  | '"' :: cs => quoted cs
  | cs => .error (mismatch "a string" cs)

/-- A truth value. -/
def bool : Reader Bool := fun cs =>
  match skipSpaces cs with
  | 't' :: cs => (true, ·) <$> afterWord ['r', 'u', 'e'] cs
  | 'f' :: cs => (false, ·) <$> afterWord ['a', 'l', 's', 'e'] cs
  | cs => .error (mismatch "a boolean" cs)

def float : Reader Float := fun cs =>
  let cs := skipSpaces cs
  if cs.head?.any startsNumber then (fun (n, cs) => (n.toFloat, cs)) <$> number cs
  else .error (mismatch "f64" cs)

/-- A whole number that fits a signed word of 64 bits. -/
def integer : Reader Int := fun cs =>
  let cs := skipSpaces cs
  match number cs with
  | .ok (n, rest) =>
    match n.toInt? with
    | some i => .ok (i, rest)
    | none => .error (mismatch "i64" cs)
  | .error _ => .error (mismatch "i64" cs)

/-- A document that may be null. -/
def optional {α : Type} (read : Reader α) : Reader (Option α) := fun cs =>
  match skipSpaces cs with
  | 'n' :: cs => (none, ·) <$> afterWord ['u', 'l', 'l'] cs
  | cs => (fun (a, cs) => (some a, cs)) <$> read cs

def choiceName {α : Type} (ofName? : String → Option α) (expected : String) : Reader α :=
  fun cs => do
    let (name, cs) ← text cs
    match ofName? name with
    | some a => .ok (a, cs)
    | none => .error (.before (.unknownName name expected) cs)

/-- One of several choices, given by its name or by an object of its name and null. -/
def choice {α : Type} (ofName? : String → Option α) (expected : String) : Reader α := fun cs =>
  match skipSpaces cs with
  | [] => .error (.before .endInValue [])
  | '"' :: cs => choiceName ofName? expected ('"' :: cs)
  | '\x7b' :: cs => do
    let (a, cs) ← choiceName ofName? expected cs
    let cs ← afterColon cs
    match skipSpaces cs with
    | 'n' :: cs =>
      let cs ← afterWord ['u', 'l', 'l'] cs
      match skipSpaces cs with
      | '\x7d' :: cs => .ok (a, cs)
      | [] => .error (.before .endInObject [])
      | cs => .error (.before .valueDue cs)
    | cs => .error (mismatch "unit" cs)
  | cs => .error (.within .valueDue cs)

/-- What a whole text stands for; only blanks may follow. -/
def Reader.run {α : Type} (read : Reader α) (text : String) : Except ReadError α :=
  let cs := text.toList
  let result := do
    let (a, rest) ← read cs
    match skipSpaces rest with
    | [] => .ok a
    | rest => .error (Flaw.within .trailingText rest)
  result.mapError (Flaw.locate cs)

end EdaParts.Json
