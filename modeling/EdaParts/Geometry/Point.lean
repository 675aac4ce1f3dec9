/-!
# Points of the plane

Points carry doubles, and vectors are points too. The operations are those of the plane,
coordinate by coordinate, in the order of the doubles they are made of.
-/

namespace EdaParts

/-- A point or a vector of the plane. -/
structure Point where
  x : Float
  y : Float
  deriving Inhabited

namespace Point

def zero : Point := ⟨0, 0⟩

/-- The point moved by a vector. -/
def add (p q : Point) : Point := ⟨p.x + q.x, p.y + q.y⟩

def sub (p q : Point) : Point := ⟨p.x - q.x, p.y - q.y⟩

/-- The vector stretched by a factor. -/
def scale (k : Float) (p : Point) : Point := ⟨p.x * k, p.y * k⟩

instance : Add Point := ⟨add⟩
instance : Sub Point := ⟨sub⟩

/-- The length of a vector. -/
def norm (p : Point) : Float := (p.x * p.x + p.y * p.y).sqrt

/-- The distance between two points. -/
def distance (p q : Point) : Float := (p - q).norm

/-- Equality of both coordinates, as doubles compare. -/
def same (p q : Point) : Bool := p.x == q.x && p.y == q.y

/-- The image of `p` in the point `center`. -/
def reflect (p center : Point) : Point := ⟨2 * center.x - p.x, 2 * center.y - p.y⟩

end Point

end EdaParts
