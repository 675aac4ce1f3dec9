import EdaParts.Decimal.Shortest

/-!
# Numbers as text

Every double is written with the fewest digits that read back. `plain` is the form of the library
files: a point but never an exponent, and no point in whole numbers. `spelled` is the form of
messages: a point in every number, and an exponent for the very small and the very large. `fixed`
has a set number of places.
-/

namespace EdaParts.Decimal

open EdaParts.Binary64 (Parts parts)

/-- The digits of a natural number, most significant first. -/
def digitChars (n : Nat) : List Char :=
  Nat.toDigits 10 n

/-- The digits of `d` with a point in their place: zeros fill up to the point, and a whole number
has none. -/
def positional (d : Scaled) : List Char :=
  let digits := digitChars d.digits
  if 0 ≤ d.exponent then
    if d.digits = 0 then ['0'] else digits ++ List.replicate d.exponent.toNat '0'
  else
    let places := (-d.exponent).toNat
    let padded := List.replicate (places + 1 - digits.length) '0' ++ digits
    padded.take (padded.length - places) ++ '.' :: padded.drop (padded.length - places)

/-- One digit, a point if more follow, and the power of ten of the first digit. -/
def scientific (d : Scaled) : List Char :=
  let digits := digitChars d.digits
  let power := d.exponent + (digits.length - 1)
  let fraction := if digits.length ≤ 1 then [] else '.' :: digits.drop 1
  let sign := if power < 0 then ['-'] else []
  digits.take 1 ++ fraction ++ 'e' :: sign ++ digitChars power.natAbs

/-- A minus sign when it is asked for. -/
def signed (negative : Bool) (cs : List Char) : List Char :=
  if negative then '-' :: cs else cs

/-- The text of a double around the text of its size: no number is `NaN`, and what is beyond every
number `inf`. -/
def spell (size : Nat → Int → List Char) (x : Float) : String :=
  match parts x with
  | .nan => "NaN"
  | .infinite negative => String.ofList (signed negative ['i', 'n', 'f'])
  | .finite negative m e => String.ofList (signed negative (size m e))

/-- The fewest digits that read back, with a point but never an exponent. -/
def plain (x : Float) : String :=
  spell (fun m e => positional (shortest .up m e)) x

/-- How numbers are spelled in messages. -/
structure Spelling where
  /-- The power of ten below which numbers have an exponent. -/
  least : Int
  ties : Ties

/-- The fewest digits that read back, always with a point: positional from the least power of ten
to below `10 ^ 16`, and with an exponent elsewhere. -/
def spelled (s : Spelling) (x : Float) : String :=
  spell (fun m e =>
    let d := shortest s.ties m e
    let top := d.exponent + (digitChars d.digits).length
    if d.digits = 0 then ['0', '.', '0']
    else if s.least < top ∧ top ≤ 16 then
      if 0 ≤ d.exponent then positional d ++ ['.', '0'] else positional d
    else scientific d) x

/-- The whole number nearest to `num / den`, a half going to the even neighbour. -/
def divideToEven (num den : Nat) : Nat :=
  let q := num / den
  let r := num % den
  if 2 * r < den then q else if 2 * r = den then q + q % 2 else q + 1

/-- The exact value rounded to a set number of places, a half going to the even neighbour; zero
carries no sign. -/
def fixed (places : Nat) (x : Float) : String :=
  match parts x with
  | .finite negative m e =>
    let n := divideToEven (m * Nat.pow 2 e.toNat * Nat.pow 10 places) (Nat.pow 2 (-e).toNat)
    let text := digitChars (n / Nat.pow 10 places) ++
      if places = 0 then []
      else
        let tail := digitChars (n % Nat.pow 10 places)
        '.' :: (List.replicate (places - tail.length) '0' ++ tail)
    String.ofList (signed (negative && n != 0) text)
  | _ => plain x

end EdaParts.Decimal
