import EdaParts.Json.Document

/-!
# Documents as they are written

The grammar of documents as types. A `Document` is a document together with the way it is written, blanks, escapes
and digits included, so that the texts of the grammar are the texts of documents.

* `Mark`, `spell`, `said?` : strings mark by mark, and what they say; a half of a pair of code units that stands
  alone says nothing;
* `NumberText` : numbers by their digits;
* `Document`, `Items`, `Members` : documents, and what stands between brackets;
* `Document.text`, `Document.value?` : the text of a document, and the value that it stands for, if it is nested
  only so deep, its numbers are not too large and its strings say something;
* `Members.named` : the documents that go by a name.
-/

namespace EdaParts.Json

/-- Blanks between the parts of a document. -/
abbrev Blanks := { cs : List Char // ∀ c ∈ cs, isSpace c = true }

def Blanks.none : Blanks := ⟨[], fun _ h => nomatch h⟩

/-! ## Strings -/

/-- The hexadecimal digits in either case, with their values. -/
def hexDigits : List (Char × Nat) :=
  [('0', 0), ('1', 1), ('2', 2), ('3', 3), ('4', 4), ('5', 5), ('6', 6), ('7', 7), ('8', 8), ('9', 9),
    ('a', 10), ('b', 11), ('c', 12), ('d', 13), ('e', 14), ('f', 15),
    ('A', 10), ('B', 11), ('C', 12), ('D', 13), ('E', 14), ('F', 15)]

abbrev HexDigit := { d : Char × Nat // d ∈ hexDigits }

/-- A code unit in four hexadecimal digits. -/
structure CodeUnit where
  a : HexDigit
  b : HexDigit
  c : HexDigit
  d : HexDigit

namespace CodeUnit

def digits (u : CodeUnit) : List Char := [u.a.1.1, u.b.1.1, u.c.1.1, u.d.1.1]

def number (u : CodeUnit) : Nat := ((u.a.1.2 * 16 + u.b.1.2) * 16 + u.c.1.2) * 16 + u.d.1.2

end CodeUnit

/-- The letters of short escapes, with the characters that they stand for. -/
def shortEscapes : List (Char × Char) :=
  [('"', '"'), ('\\', '\\'), ('/', '/'), ('b', Char.ofNat 8), ('f', Char.ofNat 12), ('n', '\n'), ('r', '\r'),
    ('t', '\t')]

/-- One character of a string as it is written. -/
inductive Mark where
  | plain (c : Char) (h : c ≠ '"' ∧ c ≠ '\\' ∧ 0x20 ≤ c.toNat)
  | short (e : { e : Char × Char // e ∈ shortEscapes })
  | unit (u : CodeUnit)

def Mark.text : Mark → List Char
  | plain c _ => [c]
  | short e => ['\\', e.1.1]
  | unit u => '\\' :: 'u' :: u.digits

/-- A string as it is written, without its quotes. -/
def spell (marks : List Mark) : List Char := marks.flatMap Mark.text

/-- The character of a pair of code units. -/
def pairOf (high low : Nat) : Char :=
  Char.ofNat (0x10000 + (high - 0xD800) * 0x400 + (low - 0xDC00))

/-- What a string says, if the halves of pairs stand together. -/
def said? : List Mark → Option (List Char)
  | [] => some []
  | .plain c _ :: marks => (said? marks).map (c :: ·)
  | .short e :: marks => (said? marks).map (e.1.2 :: ·)
  | .unit u :: marks =>
    if isLowHalf u.number then none
    else if isHighHalf u.number then
      match marks with
      | .unit v :: marks =>
        if isLowHalf v.number then (said? marks).map (pairOf u.number v.number :: ·) else none
      | _ => none
    else (said? marks).map (Char.ofNat u.number :: ·)

/-! ## Numbers -/

/-- An exponent: its letter, its sign, told by whether it is a minus, and its digits. -/
structure ExponentText where
  letter : Char
  sign : Option Bool
  digits : List Char
  letter_eq : letter = 'e' ∨ letter = 'E'
  digits_ne : digits ≠ []
  isDigit : ∀ d ∈ digits, d.isDigit = true

namespace ExponentText

def signText : Option Bool → List Char
  | none => []
  | some true => ['-']
  | some false => ['+']

def text (e : ExponentText) : List Char := e.letter :: (signText e.sign ++ e.digits)

def number (e : ExponentText) : Int :=
  let n : Int := Decimal.digitsValue 0 e.digits
  if e.sign = some true then -n else n

end ExponentText

/-- A number by its digits before and after the point, and its exponent. Only zero begins with a zero, and a number
without a point has no digits after it. -/
structure NumberText where
  negative : Bool
  whole : List Char
  fraction : List Char
  exponent : Option ExponentText
  whole_ne : whole ≠ []
  whole_isDigit : ∀ d ∈ whole, d.isDigit = true
  whole_zero : whole.head? = some '0' → whole = ['0']
  fraction_isDigit : ∀ d ∈ fraction, d.isDigit = true

namespace NumberText

def fractionText : List Char → List Char
  | [] => []
  | d :: ds => '.' :: d :: ds

def text (n : NumberText) : List Char :=
  (if n.negative then ['-'] else []) ++
    (n.whole ++ (fractionText n.fraction ++ (n.exponent.map ExponentText.text).getD []))

def numeral (n : NumberText) : Numeral :=
  ⟨n.negative, n.whole, n.fraction, n.exponent.map ExponentText.number⟩

end NumberText

/-! ## Documents -/

mutual

inductive Document where
  | null
  | bool (b : Bool)
  | number (n : NumberText)
  | string (marks : List Mark)
  | array (items : Items)
  | object (members : Members)

/-- What stands between the brackets of an array. -/
inductive Items where
  | nil (blanks : Blanks)
  | cons (before : Blanks) (d : Document) (after : Blanks) (more : Items)

/-- What stands between the brackets of an object: names, and documents after colons with blanks on both sides. -/
inductive Members where
  | nil (blanks : Blanks)
  | cons (before : Blanks) (name : List Mark) (left right : Blanks) (d : Document) (after : Blanks) (more : Members)

end

/-- The comma before an item or a member that is not the first. -/
def divider (first : Bool) : List Char := if first then [] else [',']

/-- A string with its quotes. -/
def quotedText (marks : List Mark) : List Char := '"' :: (spell marks ++ ['"'])

mutual

def Document.text : Document → List Char
  | .null => ['n', 'u', 'l', 'l']
  | .bool true => ['t', 'r', 'u', 'e']
  | .bool false => ['f', 'a', 'l', 's', 'e']
  | .number n => n.text
  | .string marks => quotedText marks
  | .array items => '[' :: (items.text true ++ [']'])
  | .object members => '\x7b' :: (members.text true ++ ['\x7d'])

def Items.text : Items → (first : Bool) → List Char
  | .nil blanks, _ => blanks.1
  | .cons before d after more, first => divider first ++ (before.1 ++ (d.text ++ (after.1 ++ more.text false)))

def Members.text : Members → (first : Bool) → List Char
  | .nil blanks, _ => blanks.1
  | .cons before name left right d after more, first =>
    divider first ++ (before.1 ++ (quotedText name ++ (left.1 ++ (':' :: (right.1 ++
      (d.text ++ (after.1 ++ more.text false)))))))

end

mutual

/-- The value of a document that is nested at most `depth` deep. -/
def Document.value? : Document → (depth : Nat) → Option Value
  | .null, _ => some .null
  | .bool b, _ => some (.bool b)
  | .number n, _ => n.numeral.value?.map .number
  | .string marks, _ => (said? marks).map fun cs => .string (String.ofList cs)
  | .array _, 0 => none
  | .array items, depth + 1 => (items.values? depth).map .array
  | .object _, 0 => none
  | .object members, depth + 1 => (members.values? depth).map .object

def Items.values? : Items → (depth : Nat) → Option (List Value)
  | .nil _, _ => some []
  | .cons _ d _ more, depth => do
    let v ← d.value? depth
    let vs ← more.values? depth
    return v :: vs

def Members.values? : Members → (depth : Nat) → Option (List (String × Value))
  | .nil _, _ => some []
  | .cons _ name _ _ d _ more, depth => do
    let name ← said? name
    let v ← d.value? depth
    let vs ← more.values? depth
    return (String.ofList name, v) :: vs

end

/-- What a string says. -/
def Document.string? : Document → Option String
  | string marks => (said? marks).map String.ofList
  | _ => none

namespace Members

/-- All names say something. -/
def Spelled : Members → Prop
  | .nil _ => True
  | .cons _ name _ _ _ _ more => (said? name).isSome ∧ more.Spelled

/-- The documents under a name, in order. -/
def named (name : String) : Members → List Document
  | .nil _ => []
  | .cons _ marks _ _ d _ more =>
    if (said? marks).map String.ofList = some name then d :: more.named name else more.named name

end Members

end EdaParts.Json
