import EdaParts.Proofs.Footprint.Extent
import Mathlib.Data.List.Forall2

/-!
# Centering a footprint

A finished board is moved as a whole: every point of every primitive by the same vector, and nothing else
about them changes. Tracks and pads alone decide which vector it is, and where the texts stand.

* `Primitive.MovedBy` : one primitive is another one, moved by a vector;
* `Board.box_congr`, `Board.linesAndPads_congr` : boards with the same tracks and pads have the same box, and
  the same lines and pads;
* `Board.finish_moves_as_one` : how a finished board is moved.
-/

namespace EdaParts

namespace Primitive

/-- The points of a primitive on the board. -/
def points : Primitive → List Point
  | line start stop _ _ => [start, stop]
  | arc center start mid stop _ _ _ => [center, start, mid, stop]
  | circle center _ _ _ => [center]
  | rect start stop _ _ => [start, stop]
  | pad p => [p.position]

/-- A primitive without its points: its kind, its measures and its layers, and the outline of a pad, which
counts from the pad. -/
def unplaced : Primitive → Primitive
  | line _ _ width layer => line .zero .zero width layer
  | arc _ _ _ _ angle width layer => arc .zero .zero .zero .zero angle width layer
  | circle _ radius width layer => circle .zero radius width layer
  | rect _ _ width layer => rect .zero .zero width layer
  | pad p => pad { p with position := .zero }

/-- The second primitive is the first one with every point moved by the vector. -/
structure MovedBy (v : Point) (p q : Primitive) : Prop where
  points : q.points = p.points.map (· + v)
  unplaced : q.unplaced = p.unplaced

theorem movedBy_translate (v : Point) (p : Primitive) : MovedBy v p (p.translate v) := by
  cases p <;> exact ⟨rfl, rfl⟩

theorem isLineOrPad_translate (v : Point) (p : Primitive) :
    (p.translate v).isLineOrPad = p.isLineOrPad := by
  cases p <;> rfl

theorem filter_translate (v : Point) (ps : List Primitive) :
    (ps.map (translate v)).filter isLineOrPad = (ps.filter isLineOrPad).map (translate v) := by
  simp only [List.filter_map, Function.comp_def, isLineOrPad_translate]

end Primitive

namespace Board

variable {c c' : FootprintContext} {lines lines' : List String}

theorem box_congr (hframe : c.frame = c'.frame)
    (h : lines.filterMap (Placement.wideningRecord? c) =
      lines'.filterMap (Placement.wideningRecord? c')) :
    (ofLines c lines).value.box = (ofLines c' lines').value.box := by
  rw [box_ofLines, box_ofLines, (Placement.flatMap_widening c lines).1,
    (Placement.flatMap_widening c' lines').1, Placement.widening_congr hframe h]

theorem linesAndPads_congr (hframe : c.frame = c'.frame)
    (h : lines.filterMap (Placement.wideningRecord? c) =
      lines'.filterMap (Placement.wideningRecord? c')) :
    (ofLines c lines).value.primitives.filter Primitive.isLineOrPad =
      (ofLines c' lines').value.primitives.filter Primitive.isLineOrPad := by
  rw [primitives_ofLines, primitives_ofLines, (Placement.flatMap_widening c lines).2,
    (Placement.flatMap_widening c' lines').2, Placement.widening_congr hframe h]

/-- Texts stand around the box. -/
theorem texts_finish_congr {b b' : Board} (h : b.box = b'.box) (name : String) :
    (b.finish name).texts = (b'.finish name).texts := by
  simp only [finish, texts, h]

/-- The vector from the center of the box to the origin. -/
def shift (b : Board) : Point :=
  ⟨-b.box.center.x, -b.box.center.y⟩

theorem movedBy_finish (b : Board) (name : String) :
    List.Forall₂ (Primitive.MovedBy b.shift) b.primitives (b.finish name).primitives := by
  rw [finish, List.forall₂_map_right_iff, List.forall₂_same]
  exact fun p _ => p.movedBy_translate _

/-- **A finished board is moved as one**, by a vector that its tracks and pads decide: with the same tracks
and pads, whatever else is drawn or skipped, the vector is the same, and so are the lines, the pads and the
texts. -/
theorem finish_moves_as_one (c : FootprintContext) (lines : List String) (name : String) :
    List.Forall₂ (Primitive.MovedBy (ofLines c lines).value.shift) (ofLines c lines).value.primitives
      ((ofLines c lines).value.finish name).primitives ∧
    ∀ c' lines', c.frame = c'.frame →
      lines.filterMap (Placement.wideningRecord? c) = lines'.filterMap (Placement.wideningRecord? c') →
      (ofLines c lines).value.shift = (ofLines c' lines').value.shift ∧
      ((ofLines c lines).value.finish name).primitives.filter Primitive.isLineOrPad =
        ((ofLines c' lines').value.finish name).primitives.filter Primitive.isLineOrPad ∧
      ((ofLines c lines).value.finish name).texts = ((ofLines c' lines').value.finish name).texts := by
  refine ⟨movedBy_finish _ name, fun c' lines' hframe hrecords => ?_⟩
  have hbox := box_congr hframe hrecords
  refine ⟨by rw [shift, shift, hbox], ?_, texts_finish_congr hbox name⟩
  simp only [finish, Primitive.filter_translate]
  rw [linesAndPads_congr hframe hrecords, hbox]

/-- The same track and pad among a circle, a rectangle and lines that are skipped. -/
def trackAndPadAmong : List String :=
  ["CIRCLE~500~500~20~1~3", "TRACK~1~1~10 20 30 40", "HOLE~7~7~2", "RECT~0~0~900~900~3", "PAD~OVAL~x",
    "PAD~POLYGON~100~100~10~10~1~1~0~90 90 110 90 100 120", "CIRCLE~100~100~5~1~100"]

theorem finish_moves_trackAndPad :
    (trackAndPad.filterMap (Placement.wideningRecord? fromCorner) =
      trackAndPadAmong.filterMap (Placement.wideningRecord? fromCorner)) ∧
    (ofLines fromCorner trackAndPad).value.shift = (ofLines fromCorner trackAndPadAmong).value.shift ∧
    ((ofLines fromCorner trackAndPad).value.finish "PAD").primitives.filter Primitive.isLineOrPad =
      ((ofLines fromCorner trackAndPadAmong).value.finish "PAD").primitives.filter Primitive.isLineOrPad ∧
    ((ofLines fromCorner trackAndPad).value.finish "PAD").texts =
      ((ofLines fromCorner trackAndPadAmong).value.finish "PAD").texts := by
  have hrecords : trackAndPad.filterMap (Placement.wideningRecord? fromCorner) =
      trackAndPadAmong.filterMap (Placement.wideningRecord? fromCorner) := by
    decide +kernel
  exact ⟨hrecords,
    (finish_moves_as_one fromCorner trackAndPad "PAD").2 fromCorner trackAndPadAmong rfl hrecords⟩

end Board

end EdaParts
