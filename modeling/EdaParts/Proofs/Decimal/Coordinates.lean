import EdaParts.Footprint.Basic
import EdaParts.Frame

/-!
# Coordinates as they are printed

Of a point only its printed coordinates can be read again, since they are rounded.
-/

namespace EdaParts

/-- A point with its coordinates as they are printed. -/
structure PrintedPoint where
  x : String
  y : String
  deriving Repr, DecidableEq

structure PrintedTriple where
  x : String
  y : String
  z : String
  deriving Repr, DecidableEq

def MilPoint.printed (p : MilPoint) : PrintedPoint :=
  ⟨numberText p.toPoint.x, numberText p.toPoint.y⟩

def Point.printed (p : Point) : PrintedPoint :=
  ⟨numberText p.x, numberText p.y⟩

def Triple.printed (t : Triple) : PrintedTriple :=
  ⟨numberText t.x, numberText t.y, numberText t.z⟩

end EdaParts
