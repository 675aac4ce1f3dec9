import EdaParts.Binary64

/-!
# The fewest digits that read back

A double stands for the interval of reals that round to it: from halfway to the value below to
halfway to the value above, the ends included exactly when its mantissa is even. `shortest` gives
the decimal of fewest digits in that interval, and the nearest of those.

* `Scaled` : `digits * 10 ^ exponent`;
* `Ties` : which of two equally near ones is taken;
* `holds` : a decimal lies in the interval of `mantissa * 2 ^ exponent`;
* `search` : ever finer grids of decimals, the two neighbours of the value on each.

All comparisons are between natural numbers, over a common denominator.
-/

namespace EdaParts.Decimal

open EdaParts

/-- The decimal `digits * 10 ^ exponent`. -/
structure Scaled where
  digits : Nat
  exponent : Int
  deriving Repr, DecidableEq

/-- Which of two equally near decimals is taken: the larger, or the one whose last digit is even. -/
inductive Ties where
  | up
  | toEven
  deriving Repr, DecidableEq

def compareScaled (a : Nat) (i : Int) (b : Nat) (j : Int) : Ordering :=
  compare (a * Nat.pow 10 i.toNat * Nat.pow 2 (-j).toNat) (b * Nat.pow 2 j.toNat * Nat.pow 10 (-i).toNat)

/-- The gap below a power of two is half the gap above it, unless both are as small as gaps get. -/
def hasNarrowGap (m : Nat) (e : Int) : Bool :=
  m == Nat.pow 2 52 && e != -1074

/-- The decimal `d` lies in the interval of reals that round to `m * 2 ^ e`. -/
def holds (m : Nat) (e : Int) (d : Scaled) : Bool :=
  let low := if hasNarrowGap m e then 4 * m - 1 else 4 * m - 2
  let above := compareScaled d.digits d.exponent low (e - 2)
  let below := compareScaled d.digits d.exponent (4 * m + 2) (e - 2)
  if m % 2 = 0 then above != .lt && below != .gt else above == .gt && below == .lt

/-- The neighbour of `m * 2 ^ e` from below on the grid of multiples of `10 ^ p`, as a multiple. -/
def gridFloor (m : Nat) (e p : Int) : Nat :=
  m * Nat.pow 2 e.toNat * Nat.pow 10 (-p).toNat / (Nat.pow 2 (-e).toNat * Nat.pow 10 p.toNat)

/-- Of the multiples `a` and `a + 1` of `10 ^ p` around `m * 2 ^ e`, the lower is the one to
take. -/
def takesLower (ties : Ties) (m : Nat) (e p : Int) (a : Nat) : Bool :=
  match compareScaled (2 * a + 1) p (2 * m) e with
  | .gt => true
  | .eq => ties = .toEven && a % 2 = 0
  | .lt => false

/-- The neighbour of `m * 2 ^ e` on the grid `10 ^ p` that reads back, if one does, and of two the
nearer. -/
def neighbour? (ties : Ties) (m : Nat) (e p : Int) : Option Scaled :=
  let a := gridFloor m e p
  let down : Scaled := ⟨a, p⟩
  let up : Scaled := ⟨a + 1, p⟩
  match holds m e down, holds m e up with
  | true, true => some (if takesLower ties m e p a then down else up)
  | true, false => some down
  | false, true => some up
  | false, false => none

/-- The first grid from `10 ^ p` down that has a neighbour which reads back, `grids` of them
tried; the exact value stands in when none has. -/
def search (ties : Ties) (m : Nat) (e : Int) : (grids : Nat) → (p : Int) → Scaled
  | 0, _ => ⟨m * Nat.pow 2 e.toNat * Nat.pow 5 (-e).toNat, min e 0⟩
  | grids + 1, p => (neighbour? ties m e p).getD (search ties m e grids (p - 1))

/-- A power of ten that lies above `m * 2 ^ e`, less than two places too high. -/
def topPlace (m : Nat) (e : Int) : Int :=
  (m.log2 + 1 + e) * 30103 / 100000 + 1

/-- The decimal without the zeros at the end of its digits. -/
def stripZeros (fuel : Nat) (d : Scaled) : Scaled :=
  match fuel with
  | 0 => d
  | fuel + 1 =>
    if d.digits ≠ 0 ∧ d.digits % 10 = 0 then stripZeros fuel ⟨d.digits / 10, d.exponent + 1⟩
    else d

/-- The decimal of fewest digits that reads back as `m * 2 ^ e`, for a mantissa of at most 53 bits;
zero has the digit zero. -/
def shortest (ties : Ties) (m : Nat) (e : Int) : Scaled :=
  if m = 0 then ⟨0, 0⟩
  else
    let d := search ties m e 20 (topPlace m e)
    stripZeros d.digits d

end EdaParts.Decimal
