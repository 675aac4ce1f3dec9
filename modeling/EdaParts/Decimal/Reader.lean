/-!
# Reading numbers

`readFloat?` accepts a whole text that spells a number and gives the double nearest to it: an
optional sign, digits with at most one point among or beside them, and an optional exponent; or a
sign and one of the names for what is no number or beyond every number. Blanks, digit separators
and other bases are refused.

* `readDigits?`, `readName?` : what an unsigned text spells in digits, and by a name;
* `nearest` : the double nearest to `digits * 10 ^ exponent`.
-/

namespace EdaParts.Decimal

/-- The value of a run of digits, continuing `n`. -/
def digitsValue (n : Nat) (ds : List Char) : Nat :=
  ds.foldl (fun n d => 10 * n + (d.toNat - '0'.toNat)) n

/-- The longest run of digits at the front, and what follows it. -/
def spanDigits (cs : List Char) : List Char × List Char :=
  (cs.takeWhile Char.isDigit, cs.dropWhile Char.isDigit)

/-- A minus or plus sign at the front, told by whether it is a minus, and what follows it. -/
def splitSign : List Char → Bool × List Char
  | '-' :: cs => (true, cs)
  | '+' :: cs => (false, cs)
  | cs => (false, cs)

/-- The whole text as an exponent: a mark, an optional sign and digits; an absent one is zero. -/
def readExponent? : List Char → Option Int
  | [] => some 0
  | c :: cs =>
    if c = 'e' ∨ c = 'E' then
      let (negative, ds) := splitSign cs
      if ds.isEmpty || !ds.all Char.isDigit then none
      else
        let n := digitsValue 0 ds
        some (if negative then -n else n)
    else none

/-- The double nearest to `digits * 10 ^ exponent`; sizes out of every double's reach are settled
by the count of digits. -/
def nearest (digits : Nat) (exponent : Int) : Float :=
  if digits = 0 then 0
  else
    let top := exponent + ((digits.log2 + 1) * 30103 / 100000 : Nat)
    if 320 < top then 1 / 0
    else if top < -400 then 0
    else Float.ofScientific digits (exponent < 0) exponent.natAbs

/-- The unsigned number that the whole text spells in digits. -/
def readDigits? (cs : List Char) : Option Float :=
  let (whole, rest) := spanDigits cs
  let (fraction, rest) :=
    match rest with
    | '.' :: rest => spanDigits rest
    | _ => ([], rest)
  if whole.isEmpty && fraction.isEmpty then none
  else
    (readExponent? rest).map fun e =>
      nearest (digitsValue 0 (whole ++ fraction)) (e - fraction.length)

/-- The value of a name for what is beyond every number or no number, in letters of either case. -/
def readName? (cs : List Char) : Option Float :=
  let name := String.ofList (cs.map Char.toLower)
  if name = "inf" ∨ name = "infinity" then some (1 / 0)
  else if name = "nan" then some (0 / 0)
  else none

/-- The number that the whole text spells. -/
def readFloat? (cs : List Char) : Option Float :=
  let (negative, cs) := splitSign cs
  let size := (readDigits? cs).or (readName? cs)
  size.map fun x => if negative then -x else x

end EdaParts.Decimal
