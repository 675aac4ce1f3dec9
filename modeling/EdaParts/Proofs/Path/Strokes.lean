import EdaParts.Path.Element

/-!
# Paths as absolute strokes

What a path draws can be told without a pen. Each command is rewritten, by nothing but the strokes before it, as a
stroke in absolute coordinates of one of six kinds; then each stroke is drawn from where the strokes before it end.
The pen carries along just what those strokes say.

* `Stroke` : a command in absolute coordinates, with its shorthands filled in;
* `Stroke.origin`, `Stroke.position`, `Stroke.lastCubic?`, `Stroke.lastQuadratic?` : what strokes say to the command
  after them;
* `Segment.stroke`, `Segment.rewrite` : commands as strokes;
* `Stroke.element?`, `Stroke.drawAfter` : strokes as elements;
* `Pen.draw_after` : one command of the pen; `Element.ofPath_eq_strokes` : all of them.

Strokes that stand before others are given last first.
-/

namespace EdaParts

/-- A command in absolute coordinates, with its shorthands filled in. -/
inductive Stroke where
  | move (p : Point)
  | line (p : Point)
  | cubic (c1 c2 p : Point)
  | quadratic (c p : Point)
  | arc (rx ry rotation : Float) (large sweep : Bool) (p : Point)
  | close

namespace Stroke

/-! ## What strokes say to the next command -/

/-- Where the subpath begins: moves alone begin one. -/
def origin : List Stroke → Point
  | [] => .zero
  | move p :: _ => p
  | _ :: before => origin before

/-- Where the strokes end: a closing ends where its subpath begins. -/
def position : List Stroke → Point
  | [] => .zero
  | move p :: _ | line p :: _ | cubic _ _ p :: _ | quadratic _ p :: _ | arc _ _ _ _ _ p :: _ => p
  | close :: before => origin before

/-- The second control point of the last stroke, if that is a curve of third degree. -/
def lastCubic? : List Stroke → Option Point
  | cubic _ c2 _ :: _ => some c2
  | _ => none

/-- The control point of the last stroke, if that is a curve of second degree. -/
def lastQuadratic? : List Stroke → Option Point
  | quadratic c _ :: _ => some c
  | _ => none

/-- A point that a command gives after strokes, relative to where they end or absolute. -/
def placed (before : List Stroke) (relative : Bool) (p : Point) : Point :=
  if relative then position before + p else p

/-- The control point that a smooth curve begins with: the image of the last one in the point where the strokes end,
or that point itself. -/
def continued (before : List Stroke) (last? : Option Point) : Point :=
  (last?.map fun c => c.reflect (position before)).getD (position before)

end Stroke

namespace Segment

open Stroke (position placed continued lastCubic? lastQuadratic?)

/-- The stroke of a command that comes after others. -/
def stroke (before : List Stroke) : Segment → Stroke
  | move relative p => .move (placed before relative p)
  | line relative p => .line (placed before relative p)
  | horizontal relative x => .line ⟨if relative then (position before).x + x else x, (position before).y⟩
  | vertical relative y => .line ⟨(position before).x, if relative then (position before).y + y else y⟩
  | cubic relative c1 c2 p => .cubic (placed before relative c1) (placed before relative c2) (placed before relative p)
  | smoothCubic relative c2 p =>
    .cubic (continued before (lastCubic? before)) (placed before relative c2) (placed before relative p)
  | quadratic relative c p => .quadratic (placed before relative c) (placed before relative p)
  | smoothQuadratic relative p => .quadratic (continued before (lastQuadratic? before)) (placed before relative p)
  | arc relative rx ry rotation large sweep p => .arc rx ry rotation large sweep (placed before relative p)
  | close => .close

/-- The strokes of commands that come after others. -/
def rewrite (before : List Stroke) : List Segment → List Stroke
  | [] => []
  | s :: ss => s.stroke before :: rewrite (s.stroke before :: before) ss

end Segment

namespace Stroke

/-! ## Drawing strokes -/

/-- The element of a stroke that comes after others. An arc without a center form is a line, and nothing between equal
ends. -/
def element? (before : List Stroke) : Stroke → Option Element
  | move p => some (.move p)
  | line p => some (.line (position before) p)
  | cubic c1 c2 p => some (.cubic (position before) c1 c2 p)
  | quadratic c p => some (.quadratic (position before) c p)
  | arc rx ry rotation large sweep p =>
    match Arc.ofEnds? (position before) p rx ry (Binary64.radians rotation) large sweep with
    | some a => some (.arc a)
    | none => if (position before).same p then none else some (.line (position before) p)
  | close => some (.close (position before) (origin before))

/-- The elements of strokes that come after others. -/
def drawAfter (before : List Stroke) : List Stroke → List Element
  | [] => []
  | t :: ts => (t.element? before).toList ++ drawAfter (t :: before) ts

end Stroke

namespace Pen

/-! ## The pen -/

/-- The pen after strokes: where they end, where their subpath begins, and the control points of the last one. -/
def after (before : List Stroke) : Pen :=
  ⟨Stroke.position before, Stroke.origin before, Stroke.lastCubic? before, Stroke.lastQuadratic? before⟩

theorem smooth_after (before : List Stroke) (last? : Option Point) :
    (after before).smooth last? = Stroke.continued before last? := by
  cases last? <;> rfl

/-- **One command of the pen** draws its stroke, and leaves the pen as that stroke says. -/
theorem draw_after (before : List Stroke) (s : Segment) :
    (after before).draw s = (after (s.stroke before :: before), (s.stroke before).element? before) := by
  cases s with
  | smoothCubic relative c2 p =>
    rw [draw, smooth_after]
    rfl
  | smoothQuadratic relative p =>
    rw [draw, smooth_after]
    rfl
  | _ => rfl

/-- All commands draw their strokes one after the other. -/
theorem drawAll_after (before : List Stroke) (segments : List Segment) :
    (after before).drawAll segments = Stroke.drawAfter before (Segment.rewrite before segments) := by
  induction segments generalizing before with
  | nil => rfl
  | cons s ss ih =>
    rw [drawAll, draw_after, Segment.rewrite, Stroke.drawAfter]
    cases (s.stroke before).element? before with
    | none => exact ih _
    | some e => exact congrArg (e :: ·) (ih _)

end Pen

end EdaParts
