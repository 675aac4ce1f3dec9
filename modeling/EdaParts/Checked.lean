import EdaParts.Binary64

/-!
# Whole numbers in words

Mils are calculated in signed words of 64 bits. A result beyond them comes out at their other end; a
`Checked` number tells whether that has happened on the way to it.

* `Checked` : a word and whether all of its calculation fits;
* `Checked.wrapped`, `Checked.ofExact` : the word of an exact result.
-/

namespace EdaParts

open Binary64 (leastWord greatestWord)

/-- A signed word of 64 bits, and whether every step of its calculation stayed within the words. -/
structure Checked where
  value : Int
  fits : Bool
  deriving Repr, DecidableEq

namespace Checked

/-- A word that is not calculated. -/
def given (n : Int) : Checked := ⟨n, true⟩

/-- The word that an exact result comes out as. -/
def wrapped (n : Int) : Int := n.bmod (Nat.pow 2 64)

/-- The outcome of one more step, by its exact result, after steps that fit or not. -/
def ofExact (fits : Bool) (n : Int) : Checked :=
  ⟨wrapped n, fits && leastWord ≤ n && n ≤ greatestWord⟩

instance (n : Nat) : OfNat Checked n := ⟨given n⟩
instance : Neg Checked := ⟨fun a => ofExact a.fits (-a.value)⟩
instance : Add Checked := ⟨fun a b => ofExact (a.fits && b.fits) (a.value + b.value)⟩
instance : Sub Checked := ⟨fun a b => ofExact (a.fits && b.fits) (a.value - b.value)⟩
instance : Mul Checked := ⟨fun a b => ofExact (a.fits && b.fits) (a.value * b.value)⟩

end Checked

end EdaParts
