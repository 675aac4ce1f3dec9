import EdaParts.Binary64
import EdaParts.Geometry.Point

/-!
# Elliptical arcs

An arc is drawn from end points, radii, a rotation and two flags that choose one of four arcs; it
is kept in center form. `Arc.ofEnds?` does the conversion: radii too small to span the ends are
scaled up, and ends that coincide or a radius next to zero leave no arc.
-/

namespace EdaParts

/-- An arc of an ellipse in center form, with the ends it was drawn from. Angles are in radians,
along the ellipse before it is turned by `rotation`. -/
structure Arc where
  start : Point
  stop : Point
  center : Point
  radii : Point
  rotation : Float
  startAngle : Float
  sweepAngle : Float
  deriving Inhabited

namespace Arc

open Binary64 (pi remainder)

/-- A radius of at most this size is none. -/
def leastRadius : Float := 1e-5

/-- The arc in center form. The ends are taken into the ellipse's own frame, halfway between them
at the origin; there the center is one of two points, told apart by the flags, and the start and
sweep angles are those of the ends seen from it. -/
def ofEnds? (start stop : Point) (rx ry rotation : Float) (large sweep : Bool) : Option Arc :=
  if rx.abs ≤ leastRadius || ry.abs ≤ leastRadius || start.same stop then none
  else
    let turn := remainder rotation (2 * pi)
    let sin := turn.sin
    let cos := turn.cos
    let half : Point := ⟨(start.x - stop.x) * 0.5, (start.y - stop.y) * 0.5⟩
    let middle : Point := ⟨(start.x + stop.x) * 0.5, (start.y + stop.y) * 0.5⟩
    let p : Point := ⟨cos * half.x + sin * half.y, -sin * half.x + cos * half.y⟩
    let excess := p.x * p.x / (rx.abs * rx.abs) + p.y * p.y / (ry.abs * ry.abs)
    let factor := if excess > 1 then excess.sqrt else 1
    let rx := rx.abs * factor
    let ry := ry.abs * factor
    let both := rx * ry
    let xy := rx * p.y
    let yx := ry * p.x
    let size := xy * xy + yx * yx
    let side : Float := if large == sweep then -1 else 1
    let offset := side * ((both * both - size) / size).abs.sqrt
    let c : Point := ⟨offset * xy / ry, -offset * yx / rx⟩
    let center : Point :=
      ⟨cos * c.x - sin * c.y + middle.x, sin * c.x + cos * c.y + middle.y⟩
    let startAngle := Float.atan2 ((p.y - c.y) / ry) ((p.x - c.x) / rx)
    let stopAngle := Float.atan2 ((-p.y - c.y) / ry) ((-p.x - c.x) / rx)
    let swept := remainder (stopAngle - startAngle) (2 * pi)
    let swept :=
      if sweep && swept < 0 then swept + 2 * pi
      else if !sweep && swept > 0 then swept - 2 * pi
      else swept
    some ⟨start, stop, center, ⟨rx, ry⟩, rotation, startAngle, swept⟩

def pointAt (a : Arc) (angle : Float) : Point :=
  let x := a.radii.x * angle.cos
  let y := a.radii.y * angle.sin
  let sin := a.rotation.sin
  let cos := a.rotation.cos
  a.center + ⟨x * cos - y * sin, x * sin + y * cos⟩

/-- The point halfway along the sweep. -/
def mid (a : Arc) : Point :=
  a.pointAt (a.startAngle + a.sweepAngle / 2)

/-- The mean of the two radii. -/
def radius (a : Arc) : Float :=
  (a.radii.x + a.radii.y) / 2

/-- The number of chords that measure an arc whose radii differ. -/
def chords : Nat := 512

/-- The length along a circle, or of chords along an ellipse. -/
def length (a : Arc) : Float :=
  if (a.radii.x - a.radii.y).abs < 1e-9 then a.radii.x * a.sweepAngle.abs
  else
    let step := a.sweepAngle / Float.ofNat chords
    (List.range chords).foldl (fun total i =>
      let angle := a.startAngle + step * Float.ofNat i
      total + (a.pointAt angle).distance (a.pointAt (angle + step))) 0

end Arc

end EdaParts
