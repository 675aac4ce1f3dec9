import EdaParts.Decimal.Notation

/-!
# Numbers of a document

A numeral is read in two steps: its digits are gathered into a word of 64 bits, as far as they fit,
and the word is then scaled by a power of ten in doubles. Numerals of up to nineteen digits with a
small exponent come out exact or nearest; past that the last bits may differ from the nearest
double, and a size beyond every double is refused.

* `Numeral` : the parts of a numeral as written;
* `Number` : a whole number that fits a word, or a double, with its text and its wording;
* `Numeral.value?` : the number that a numeral stands for.
-/

namespace EdaParts.Json

/-- A numeral as written: sign, digits before and after the point, and the exponent. A numeral
without a point has no digits after it. -/
structure Numeral where
  negative : Bool
  whole : List Char
  fraction : List Char
  exponent : Option Int
  deriving Repr, DecidableEq

/-- A whole number that fits a signed or an unsigned word of 64 bits, or a finite double. -/
inductive Number where
  | integer (n : Int)
  | real (x : Float)

def Number.toFloat : Number → Float
  | integer n => Float.ofInt n
  | real x => x

/-- The number as a signed word of 64 bits. -/
def Number.toInt? : Number → Option Int
  | integer n => if n < Nat.pow 2 63 then some n else none
  | real _ => none

/-- Doubles in documents have an exponent below `10 ^ -5`, and of two equally near spellings the
even one. -/
def numberSpelling : Decimal.Spelling := ⟨-5, .toEven⟩

/-- The number in a message. -/
def Number.describe : Number → String
  | integer n => s!"integer `{n}`"
  | real x => "floating point `" ++ Decimal.spelled numberSpelling x ++ "`"

namespace Numeral

/-- Digits gathered so far, and whether one was left out because it did not fit. -/
structure Gathered where
  word : Nat
  exponent : Int
  full : Bool

/-- The word with one more digit, if it fits 64 bits. -/
def push? (word : Nat) (d : Char) : Option Nat :=
  let next := 10 * word + (d.toNat - '0'.toNat)
  if next < Nat.pow 2 64 then some next else none

/-- One more digit before the point: one that does not fit, and all after it, count as zeros. -/
def pushWhole (g : Gathered) (d : Char) : Gathered :=
  match if g.full then none else push? g.word d with
  | some word => { g with word }
  | none => { g with exponent := g.exponent + 1, full := true }

/-- One more digit after the point: one that does not fit, and all after it, are left out. -/
def pushFraction (g : Gathered) (d : Char) : Gathered :=
  match if g.full then none else push? g.word d with
  | some word => { g with word, exponent := g.exponent - 1 }
  | none => { g with full := true }

/-- The double `word * 10 ^ exponent`, unless it is beyond every double. A power below `10 ^ -308`
is reached in steps of that size. -/
def scale? (word : Nat) (exponent : Int) : Option Float :=
  let x := Float.ofNat word
  let power (e : Nat) := Float.ofScientific 1 false e
  if 0 ≤ exponent then
    if word = 0 then some 0
    else if exponent ≤ 308 then
      let y := x * power exponent.toNat
      if y.isInf then none else some y
    else none
  else if exponent ≥ -308 then some (x / power (-exponent).toNat)
  else if exponent ≥ -616 then some (x / power 308 / power (-exponent - 308).toNat)
  else some 0

/-- The number that a numeral stands for. A whole number that does not fit a word, and minus zero,
are doubles. -/
def value? (n : Numeral) : Option Number :=
  let g := n.whole.foldl pushWhole ⟨0, 0, false⟩
  if n.fraction.isEmpty && n.exponent.isNone && !g.full then
    if !n.negative then some (.integer g.word)
    else if 0 < g.word ∧ g.word ≤ Nat.pow 2 63 then some (.integer (-g.word))
    else some (.real (-Float.ofNat g.word))
  else
    let g := n.fraction.foldl pushFraction { g with full := false }
    (scale? g.word (g.exponent + n.exponent.getD 0)).map fun x =>
      .real (if n.negative then -x else x)

end Numeral

end EdaParts.Json
