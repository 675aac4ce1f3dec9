/-!
# Doubles taken apart

Rounding, truncation and remainders are whole-number operations on the sign, mantissa and exponent
that a double is made of, so each has one meaning for every double, those without a value included.

* `Parts`, `parts` : a double as plus or minus `mantissa * 2 ^ exponent`, or as no number;
* `truncated` : the whole part, held to the range of a 64-bit word;
* `rounded` : the nearest whole double, halves away from zero;
* `remainder`, `residue` : what is left of a division, with the sign of the dividend, and within
  one positive turn;
* `power` : whole powers, by squaring;
* `lesser`, `greater` : the smaller and the larger of two, where a value that is no number does not
  count.
-/

namespace EdaParts.Binary64

/-- What a double is made of. -/
inductive Parts where
  /-- No number. -/
  | nan
  /-- Beyond every number, on the side of its sign. -/
  | infinite (negative : Bool)
  /-- Plus or minus `mantissa * 2 ^ exponent`. -/
  | finite (negative : Bool) (mantissa : Nat) (exponent : Int)
  deriving Repr, DecidableEq

/-- The parts of a double, read from its 64 bits: one of sign, eleven of exponent, and a mantissa
whose leading bit is left out unless the exponent bits are zero. -/
def parts (x : Float) : Parts :=
  let bits := x.toBits.toNat
  let negative := bits / Nat.pow 2 63 == 1
  let biased : Nat := bits / Nat.pow 2 52 % Nat.pow 2 11
  let fraction := bits % Nat.pow 2 52
  if biased = 2047 then
    if fraction = 0 then .infinite negative else .nan
  else if biased = 0 then .finite negative fraction (-1074)
  else .finite negative (Nat.pow 2 52 + fraction) ((biased : Int) - 1075)

/-- The double `2 ^ exponent`, for an exponent from -1074 to 1023. -/
def powerOfTwo (exponent : Int) : Float :=
  if exponent < -1022 then Float.ofBits (Nat.pow 2 (exponent + 1074).toNat).toUInt64
  else Float.ofBits ((exponent + 1023).toNat * Nat.pow 2 52).toUInt64

/-- Plus or minus `mantissa * 2 ^ exponent`, for a mantissa of at most 53 bits. -/
def ofParts (negative : Bool) (mantissa : Nat) (exponent : Int) : Float :=
  let size := Float.ofNat mantissa * powerOfTwo exponent
  if negative then -size else size

def wholePart (mantissa : Nat) (exponent : Int) : Nat :=
  mantissa * Nat.pow 2 exponent.toNat / Nat.pow 2 (-exponent).toNat

/-- The whole number nearest to `mantissa * 2 ^ exponent`, a half going up. -/
def nearestWhole (mantissa : Nat) (exponent : Int) : Nat :=
  (2 * (mantissa * Nat.pow 2 exponent.toNat) + Nat.pow 2 (-exponent).toNat) / (2 * Nat.pow 2 (-exponent).toNat)

/-- The least and the greatest signed word of 64 bits. -/
def leastWord : Int := -Nat.pow 2 63

@[inherit_doc leastWord]
def greatestWord : Int := Nat.pow 2 63 - 1

/-- The whole part of a double, toward zero. A value beyond the signed words of 64 bits gives the
last of them on its side, and a value that is no number gives zero. -/
def truncated (x : Float) : Int :=
  match parts x with
  | .nan => 0
  | .infinite negative => if negative then leastWord else greatestWord
  | .finite negative m e =>
    let size : Int := wholePart m e
    if negative then max leastWord (-size) else min greatestWord size

/-- The nearest whole double, a half going away from zero. -/
def rounded (x : Float) : Float :=
  match parts x with
  | .finite negative m e =>
    if 0 ≤ e then x
    else if negative then -Float.ofNat (nearestWhole m e) else Float.ofNat (nearestWhole m e)
  | _ => x

/-- What is left of `x` after taking away whole multiples of `y` toward zero; it has the sign of
`x`. -/
def remainder (x y : Float) : Float :=
  match parts x, parts y with
  | .finite negative m e, .finite _ n d =>
    if n = 0 then 0 / 0
    else
      let low := min e d
      ofParts negative (m * Nat.pow 2 (e - low).toNat % (n * Nat.pow 2 (d - low).toNat)) low
  | .finite .., .infinite _ => x
  | _, _ => 0 / 0

/-- What is left of `x` after taking away whole turns of `turn`, from zero on. -/
def residue (x turn : Float) : Float :=
  let r := remainder x turn
  if r < 0 then r + turn.abs else r

/-- The smaller of two doubles; one that is no number does not count, and of two equal ones it is
the second. -/
def lesser (a b : Float) : Float :=
  if b.isNaN || a < b then a else b

/-- The larger of two doubles; one that is no number does not count, and of two equal ones it is
the second. -/
def greater (a b : Float) : Float :=
  if b.isNaN || b < a then a else b

/-- The product of `acc` and the power of `base`, by squaring, for exponents of at most `bits`
bits. -/
def powerBySquares : (bits : Nat) → (base acc : Float) → (exponent : Nat) → Float
  | 0, _, acc, _ => acc
  | bits + 1, base, acc, exponent =>
    let acc := if exponent % 2 = 1 then acc * base else acc
    if exponent < 2 then acc else powerBySquares bits (base * base) acc (exponent / 2)

/-- The power of a double, where each squaring and each product is rounded; for a negative exponent
one over that of its size. -/
def power (base : Float) (exponent : Int32) : Float :=
  let size := powerBySquares 32 base 1 exponent.toInt.natAbs
  if exponent < 0 then 1 / size else size

/-- The half turn. -/
def pi : Float := 3.141592653589793

def radians (degrees : Float) : Float :=
  degrees * (pi / 180)

def degrees (radians : Float) : Float :=
  radians * (180 / pi)

end EdaParts.Binary64
