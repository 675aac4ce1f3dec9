import EdaParts.Json.Reader
import EdaParts.Json.Value

/-!
# Whole documents

A document is read into a `Value`, or skipped. A value that is kept is nested only so deep; one that
is skipped may be nested to any depth.

* `value` : a document as a value;
* `skipValue` : what follows a document that nobody asks for;
* `Value.read` : the value of a whole text.

Each round of these readers takes at least one character, or hands over to one that does, so that
twice the number of characters is enough rounds.
-/

namespace EdaParts.Json

/-- Enough rounds for a text. -/
def roundsFor (cs : List Char) : Nat := 2 * cs.length + 2

/-- The greatest depth of arrays and objects that are kept. -/
def greatestDepth : Nat := 127

mutual

/-- The value at the front, nested at most `depth` deep. -/
def valueFrom : (rounds : Nat) → (depth : Nat) → Reader Value
  | 0, _, _ => .error (.before .endInValue [])
  | rounds + 1, depth, cs =>
    match skipSpaces cs with
    | [] => .error (.before .endInValue [])
    | 'n' :: cs => (.null, ·) <$> afterWord ['u', 'l', 'l'] cs
    | 't' :: cs => (.bool true, ·) <$> afterWord ['r', 'u', 'e'] cs
    | 'f' :: cs => (.bool false, ·) <$> afterWord ['a', 'l', 's', 'e'] cs
    | '"' :: cs => (fun (s, cs) => (.string s, cs)) <$> quoted cs
    | '[' :: cs =>
      match depth with
      | 0 => .error (.within .tooDeep ('[' :: cs))
      | depth + 1 => itemsFrom rounds depth [] cs
    | '\x7b' :: cs =>
      match depth with
      | 0 => .error (.within .tooDeep ('\x7b' :: cs))
      | depth + 1 => membersFrom rounds depth [] cs
    | c :: cs =>
      if startsNumber c then (fun (n, cs) => (.number n, cs)) <$> number (c :: cs)
      else .error (.within .valueDue (c :: cs))

/-- The array of items given last first and of those that follow. -/
def itemsFrom : (rounds : Nat) → (depth : Nat) → (done : List Value) → Reader Value
  | 0, _, _, _ => .error (.before .endInArray [])
  | rounds + 1, depth, done, cs => do
    match ← nextItem done.isEmpty cs with
    | none => .ok (.array done.reverse, afterClosing cs)
    | some cs =>
      let (v, cs) ← valueFrom rounds depth cs
      itemsFrom rounds depth (v :: done) cs

/-- The object of members given last first and of those that follow. -/
def membersFrom : (rounds : Nat) → (depth : Nat) → (done : List (String × Value)) → Reader Value
  | 0, _, _, _ => .error (.before .endInObject [])
  | rounds + 1, depth, done, cs => do
    match ← nextName done.isEmpty cs with
    | none => .ok (.object done.reverse, afterClosing cs)
    | some (name, cs) =>
      let (v, cs) ← valueFrom rounds depth (← afterColon cs)
      membersFrom rounds depth ((name, v) :: done) cs

end

/-- The value at the front, nested at most `depth` deep. -/
def value (depth : Nat) : Reader Value := fun cs =>
  valueFrom (roundsFor cs) depth cs

def Value.read (depth : Nat) (text : String) : Except ReadError Value :=
  (value depth).run text

/-! ## Skipping -/

/-- What is open around a document that is skipped. -/
inductive Bracket where
  | array
  | object
  deriving Repr, DecidableEq

/-- The text ends within what is open. -/
def Bracket.ended : Bracket → Cause
  | array => .endInArray
  | object => .endInObject

/-- What is due after an item or a member. -/
def Bracket.dividerDue : Bracket → Cause
  | array => .itemDividerDue
  | object => .memberDividerDue

/-- The character that closes what is open. -/
def Bracket.closing : Bracket → Char
  | array => ']'
  | object => '\x7d'

/-- What follows a name and its colon. -/
def skipName (cs : List Char) : Except Flaw (List Char) := do
  match skipSpaces cs with
  | [] => .error (.before .endInObject [])
  | '"' :: cs => afterColon (← skipQuoted cs)
  | cs => .error (.within .nameDue cs)

/-- The text from the value of the next item or member on. -/
def skipToValue (b : Bracket) (cs : List Char) : Except Flaw (List Char) :=
  match b with
  | .array => .ok cs
  | .object => skipName cs

mutual

/-- What follows the value at the front and everything around it that is open, innermost first. -/
def skipFrom : (rounds : Nat) → (around : List Bracket) → List Char → Except Flaw (List Char)
  | 0, _, _ => .error (.before .endInValue [])
  | rounds + 1, around, cs =>
    match skipSpaces cs with
    | [] => .error (.before .endInValue [])
    | 'n' :: cs => do leaveFrom rounds around (← afterWord ['u', 'l', 'l'] cs)
    | 't' :: cs => do leaveFrom rounds around (← afterWord ['r', 'u', 'e'] cs)
    | 'f' :: cs => do leaveFrom rounds around (← afterWord ['a', 'l', 's', 'e'] cs)
    | '"' :: cs => do leaveFrom rounds around (← skipQuoted cs)
    | '[' :: cs => enterFrom rounds .array around cs
    | '\x7b' :: cs => enterFrom rounds .object around cs
    | c :: cs =>
      if startsNumber c then do leaveFrom rounds around (← skipNumber (c :: cs))
      else .error (.within .valueDue (c :: cs))

/-- The same after an opening bracket. -/
def enterFrom : (rounds : Nat) → (b : Bracket) → (around : List Bracket) → List Char →
    Except Flaw (List Char)
  | 0, _, _, _ => .error (.before .endInValue [])
  | rounds + 1, b, around, cs =>
    match skipSpaces cs with
    | [] => .error (.before b.ended [])
    | c :: cs =>
      if c = b.closing then leaveFrom rounds around cs
      else do skipFrom rounds (b :: around) (← skipToValue b (c :: cs))

/-- The same after a value. -/
def leaveFrom : (rounds : Nat) → (around : List Bracket) → List Char → Except Flaw (List Char)
  | _, [], cs => .ok cs
  | 0, _ :: _, _ => .error (.before .endInValue [])
  | rounds + 1, b :: around, cs =>
    match skipSpaces cs with
    | [] => .error (.before b.ended [])
    | c :: cs =>
      if c = ',' then do skipFrom rounds (b :: around) (← skipToValue b cs)
      else if c = b.closing then leaveFrom rounds around cs
      else .error (.within b.dividerDue (c :: cs))

end

/-- What follows a document that nobody asks for, given enough rounds for the text. -/
def skipValue (rounds : Nat) (cs : List Char) : Except Flaw (List Char) :=
  skipFrom rounds [] cs

end EdaParts.Json
