import EdaParts.Binary64
import EdaParts.Geometry.Point

/-!
# Bounding boxes

A box is widened by one point after the other. It starts inside out, at a size that no board
reaches, and is empty until a point turns it around.
-/

namespace EdaParts

/-- The least and the greatest coordinates of points. -/
structure Box where
  minX : Float
  maxX : Float
  minY : Float
  maxY : Float

namespace Box

/-- The bound that an empty box has on the far side, in millimetres. -/
def reach : Float := 10000

def empty : Box := ⟨reach, -reach, reach, -reach⟩

/-- No point fits between the bounds. -/
def isEmpty (b : Box) : Bool :=
  b.maxX < b.minX || b.maxY < b.minY

/-- The box with one more point; a coordinate that is no number does not count. -/
def widen (b : Box) (p : Point) : Box :=
  ⟨Binary64.lesser b.minX p.x, Binary64.greater b.maxX p.x,
   Binary64.lesser b.minY p.y, Binary64.greater b.maxY p.y⟩

/-- The point lies within the bounds. -/
def contains (b : Box) (p : Point) : Bool :=
  b.minX ≤ p.x && p.x ≤ b.maxX && b.minY ≤ p.y && p.y ≤ b.maxY

/-- The middle of the box; the origin for an empty one. -/
def center (b : Box) : Point :=
  if b.isEmpty then .zero else ⟨(b.minX + b.maxX) / 2, (b.minY + b.maxY) / 2⟩

end Box

end EdaParts
