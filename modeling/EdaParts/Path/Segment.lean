import EdaParts.Decimal.Reader
import EdaParts.Geometry.Point

/-!
# Path strings

A path string is a list of drawing commands: a letter, upper case for absolute and lower case for
relative coordinates, and its numbers. Further numbers repeat the command, as lines after a move.

* `Segment` : one command with its numbers;
* `number`, `flag` : the arguments, with the blanks and the one comma around them;
* `Segment.read` : the commands of a whole text, or the first flaw in it;
* `PathError` : a flaw with its position, and the path that draws nothing at all.

Blanks are space, tab, carriage return and line feed alone.
-/

namespace EdaParts

/-- What keeps a text from being a path. -/
inductive PathError where
  /-- A character that is no command or flag here. -/
  | unexpectedData (position : Nat)
  /-- A number is due here and none stands here. -/
  | invalidNumber (position : Nat)
  /-- The text ends where an argument must begin. -/
  | endOfText
  /-- There is no command in it. -/
  | empty
  deriving Repr, DecidableEq

/-- The wording of a flaw. Characters are counted from one. -/
def PathError.message : PathError → String
  | .unexpectedData position => "unexpected data at position " ++ toString position
  | .invalidNumber position => "invalid number at position " ++ toString position
  | .endOfText => "unexpected end of stream"
  | .empty => "empty path"

/-- One drawing command. Coordinates of a relative command count from the current point. -/
inductive Segment where
  | move (relative : Bool) (p : Point)
  | line (relative : Bool) (p : Point)
  | horizontal (relative : Bool) (x : Float)
  | vertical (relative : Bool) (y : Float)
  | cubic (relative : Bool) (c1 c2 p : Point)
  | smoothCubic (relative : Bool) (c2 p : Point)
  | quadratic (relative : Bool) (c p : Point)
  | smoothQuadratic (relative : Bool) (p : Point)
  | arc (relative : Bool) (rx ry rotation : Float) (large sweep : Bool) (p : Point)
  | close

namespace Segment

/-- The blanks of path strings. -/
def isSpace (c : Char) : Bool :=
  c = ' ' || c = '\t' || c = '\r' || c = '\n'

/-- The text from its first character that is no blank. -/
def skipSpaces (cs : List Char) : List Char :=
  cs.dropWhile isSpace

/-- The text without the comma that may stand at its front. -/
def skipComma : List Char → List Char
  | ',' :: cs => cs
  | cs => cs

/-- A flaw by the text that is left where it shows. -/
inductive Flaw where
  | unexpected (left : List Char)
  | badNumber (left : List Char)
  | ended

/-- The flaw in a text of `size` characters. -/
def Flaw.toError (size : Nat) : Flaw → PathError
  | .unexpected left => .unexpectedData (size - left.length + 1)
  | .badNumber left => .invalidNumber (size - left.length + 1)
  | .ended => .endOfText

/-- The exponent at the front, its mark included, and what follows it: none where no mark stands
or a unit of length begins with it, and no result where the mark must have digits and has none. -/
def spanExponent : List Char → Option (List Char × List Char)
  | c :: cs =>
    if c = 'e' ∨ c = 'E' then
      match cs with
      | 'm' :: _ | 'x' :: _ => some ([], c :: cs)
      | '+' :: ds => some (c :: '+' :: ds.takeWhile Char.isDigit, ds.dropWhile Char.isDigit)
      | '-' :: ds => some (c :: '-' :: ds.takeWhile Char.isDigit, ds.dropWhile Char.isDigit)
      | d :: _ =>
        if d.isDigit then some (c :: cs.takeWhile Char.isDigit, cs.dropWhile Char.isDigit)
        else none
      | [] => none
    else some ([], c :: cs)
  | [] => some ([], [])

/-- The characters of the number at the front, and what follows it. -/
def spanNumber (cs : List Char) : Option (List Char × List Char) :=
  let (sign, cs) :=
    match cs with
    | '-' :: cs => (['-'], cs)
    | '+' :: cs => (['+'], cs)
    | cs => ([], cs)
  let (whole, rest) := Decimal.spanDigits cs
  let (fraction, rest) :=
    match rest with
    | '.' :: rest => ('.' :: rest.takeWhile Char.isDigit, rest.dropWhile Char.isDigit)
    | rest => ([], rest)
  if whole.isEmpty && fraction.isEmpty then none
  else
    (spanExponent rest).map fun (exponent, rest) => (sign ++ whole ++ fraction ++ exponent, rest)

/-- The finite number at the front after blanks, and what follows it after blanks and a comma. The
text has ended only if not even blanks are left. -/
def number (cs : List Char) : Except Flaw (Float × List Char) :=
  if cs.isEmpty then .error .ended
  else
    let start := skipSpaces cs
    let read := do
      let (spelled, rest) ← spanNumber start
      let x ← Decimal.readFloat? spelled
      if x.isFinite then some (x, skipComma (skipSpaces rest)) else none
    match read with
    | some r => .ok r
    | none => .error (.badNumber start)

/-- The digit 0 or 1 at the front after blanks, and what follows it after a comma and blanks. -/
def flag (cs : List Char) : Except Flaw (Bool × List Char) :=
  match skipSpaces cs with
  | [] => .error .ended
  | '0' :: rest => .ok (false, skipSpaces (skipComma rest))
  | '1' :: rest => .ok (true, skipSpaces (skipComma rest))
  | rest => .error (.unexpected rest)

/-- Two numbers, as a point. -/
def point (cs : List Char) : Except Flaw (Point × List Char) := do
  let (x, cs) ← number cs
  let (y, cs) ← number cs
  return (⟨x, y⟩, cs)

/-- The command of a letter in lower case, with its arguments from the front of the text. -/
def arguments (letter : Char) (relative : Bool) (cs : List Char) :
    Except Flaw (Segment × List Char) :=
  match letter with
  | 'm' => do
    let (p, cs) ← point cs
    return (move relative p, cs)
  | 'l' => do
    let (p, cs) ← point cs
    return (line relative p, cs)
  | 'h' => do
    let (x, cs) ← number cs
    return (horizontal relative x, cs)
  | 'v' => do
    let (y, cs) ← number cs
    return (vertical relative y, cs)
  | 'c' => do
    let (c1, cs) ← point cs
    let (c2, cs) ← point cs
    let (p, cs) ← point cs
    return (cubic relative c1 c2 p, cs)
  | 's' => do
    let (c2, cs) ← point cs
    let (p, cs) ← point cs
    return (smoothCubic relative c2 p, cs)
  | 'q' => do
    let (c, cs) ← point cs
    let (p, cs) ← point cs
    return (quadratic relative c p, cs)
  | 't' => do
    let (p, cs) ← point cs
    return (smoothQuadratic relative p, cs)
  | 'a' => do
    let (radii, cs) ← point cs
    let (rotation, cs) ← number cs
    let (large, cs) ← flag cs
    let (sweep, cs) ← flag cs
    let (p, cs) ← point cs
    return (arc relative radii.x radii.y rotation large sweep p, cs)
  | _ => .ok (close, cs)

/-- The command letters, in either case. -/
def isCommand (c : Char) : Bool :=
  c.toLower ∈ ['m', 'l', 'h', 'v', 'c', 's', 'q', 't', 'a', 'z']

/-- A character that a number may begin with. -/
def startsNumber (c : Char) : Bool :=
  c.isDigit || c = '.' || c = '-' || c = '+'

/-- The command letter due at the front of a text that is not empty, and where its arguments begin:
the letter that stands there, or for a number the letter to repeat, a line after a move. A path
begins with a move, and nothing repeats a closing. -/
def command (previous : Option Char) (cs : List Char) : Except Flaw (Char × List Char) :=
  match cs, previous with
  | [], _ => .error .ended
  | c :: rest, none => if c.toLower = 'm' then .ok (c, rest) else .error (.unexpected cs)
  | c :: rest, some p =>
    if isCommand c then .ok (c, rest)
    else if startsNumber c ∧ p.toLower ≠ 'z' then
      .ok (if p = 'M' then 'L' else if p = 'm' then 'l' else p, cs)
    else .error (.unexpected cs)

/-- The commands of a text from the one after `previous` on. Each takes at least one character, so
that as many rounds as there are characters reach the end. -/
def readFrom : (rounds : Nat) → (previous : Option Char) → List Char →
    Except Flaw (List Segment)
  | 0, _, _ => .ok []
  | rounds + 1, previous, cs => do
    let cs := skipSpaces cs
    if cs.isEmpty then return []
    let (letter, rest) ← command previous cs
    let (segment, rest) ← arguments letter.toLower letter.isLower rest
    return segment :: (← readFrom rounds (some letter) rest)

def read (text : String) : Except PathError (List Segment) :=
  let cs := text.toList
  (readFrom cs.length none cs).mapError (Flaw.toError cs.length)

end Segment

end EdaParts
