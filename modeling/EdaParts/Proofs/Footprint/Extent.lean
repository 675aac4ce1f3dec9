import EdaParts.Proofs.Binary64.Order
import EdaParts.Proofs.Footprint.Placements

/-!
# What the box covers

The box of a board is widened by the vertices of its tracks and the outlines of its pads, and by nothing
else. It grows along the fold, it holds all those points, and their order does not matter. Each of its
bounds is one of their coordinates, unless they all lie beyond the reach from which the bound starts.

* `Placement.IsExtent` : the points by which a line widens the box; `Placement.isExtent_iff` : the
  handlers report these;
* `Box.Grows`, `Box.Agrees`, `Box.Fits` : a box within another, the same box, the least box around points;
* `Board.box_covers_in_any_order` : the box covers what it should, in whichever order the lines stand;
* `Board.box_fits_iff` : when it covers no more than that.
-/

namespace EdaParts

open Binary64 Reading

/-! ## Points -/

deriving instance DecidableEq for Point

namespace Point

variable {p : Point}

/-- Both coordinates are numbers. -/
def IsNumber (p : Point) : Prop :=
  Binary64.IsNumber p.x ∧ Binary64.IsNumber p.y

/-- Both coordinates are finite. -/
def IsFinite (p : Point) : Prop :=
  p.x.isFinite = true ∧ p.y.isFinite = true

instance : Decidable p.IsNumber := inferInstanceAs (Decidable (_ ∧ _))
instance : Decidable p.IsFinite := inferInstanceAs (Decidable (_ ∧ _))

theorem IsFinite.isNumber (h : p.IsFinite) : p.IsNumber :=
  ⟨isNumber_of_isFinite h.1, isNumber_of_isFinite h.2⟩

end Point

/-! ## The points that a line reports -/

namespace Pad

/-- Half the width and half the height of the upright box around the turned rectangle of the pad's size. -/
def halfSize (p : Pad) : Point :=
  let angle := Binary64.radians p.rotation
  ⟨(p.size.x / 2 * angle.cos).abs + (p.size.y / 2 * angle.sin).abs,
    (p.size.x / 2 * angle.sin).abs + (p.size.y / 2 * angle.cos).abs⟩

/-- Two opposite corners of that box on the board. -/
def corners (p : Pad) : List Point :=
  [Placement.snap (p.position.x - p.halfSize.x) (p.position.y - p.halfSize.y),
    Placement.snap (p.position.x + p.halfSize.x) (p.position.y + p.halfSize.y)]

end Pad

namespace Placement

variable {c : FootprintContext} {line : String} {lines : List String} {q : Point}

/-- A line that is not skipped reports the point: a vertex of a track, a vertex of the outline of a pad, or
for a pad without an outline a corner of the box around it. -/
inductive IsExtent (c : FootprintContext) (line : String) : Point → Prop
  | vertex {fields : List String} {vertices : List Point} {v : Point}
    (hrecord : Record.ofLine? line = some ⟨"TRACK", fields⟩) (haccepted : (read c line).isOk = true)
    (hpoints : Fields.points ⟨"TRACK", fields⟩ (trackField ⟨"TRACK", fields⟩) = .ok vertices)
    (hv : v ∈ vertices) : IsExtent c line (c.frame.point v)
  | outline {fields : List String} {p : Placement} {drawn : Pad} {v : Point}
    (hrecord : Record.ofLine? line = some ⟨"PAD", fields⟩) (haccepted : read c line = .ok p)
    (hpad : .pad drawn ∈ p.primitives) (hv : v ∈ drawn.outline) :
    IsExtent c line (snap (drawn.position.x + v.x) (drawn.position.y + v.y))
  | corner {fields : List String} {p : Placement} {drawn : Pad} {q : Point}
    (hrecord : Record.ofLine? line = some ⟨"PAD", fields⟩) (haccepted : read c line = .ok p)
    (hpad : .pad drawn ∈ p.primitives) (houtline : drawn.outline = []) (hq : q ∈ drawn.corners) :
    IsExtent c line q

theorem mem_padExtents_iff {p : Pad} :
    q ∈ padExtents p.position p.size p.rotation p.outline ↔
      (∃ v ∈ p.outline, snap (p.position.x + v.x) (p.position.y + v.y) = q) ∨
        p.outline = [] ∧ q ∈ p.corners := by
  unfold padExtents
  cases p.outline with
  | nil =>
    simp only [List.isEmpty_nil, if_true, List.not_mem_nil, false_and, exists_false, false_or, true_and]
    rfl
  | cons v outline =>
    rw [List.isEmpty_cons, if_neg Bool.false_ne_true, List.mem_map]
    simp only [reduceCtorEq, false_and, or_false]

/-- A record is read in one way. -/
theorem read_of_record (kind : FootprintKind) {fields : List String}
    (hrecord : Record.ofLine? line = some ⟨kind.tag, fields⟩) {p : Placement} :
    read c line = .ok p ↔ (ofKind c kind ⟨kind.tag, fields⟩).Yields p := by
  rw [value_of_record kind hrecord]
  rfl

/-- **The points that a line reports** are those by which it widens the box. -/
theorem isExtent_iff : IsExtent c line q ↔ ∃ p, read c line = .ok p ∧ q ∈ p.extents := by
  constructor
  · rintro (⟨hrecord, haccepted, hpoints, hv⟩ | ⟨hrecord, haccepted, hpad, hv⟩ |
      ⟨hrecord, haccepted, hpad, houtline, hq⟩)
    · cases hread : read c line with
      | error skip =>
        rw [hread] at haccepted
        cases haccepted
      | ok p =>
        have hyields := (read_of_record .track hrecord).mp hread
        obtain ⟨width, layer, vertices, -, hvertices, rfl⟩ := yields_track hyields
        obtain rfl := Except.ok.inj (hpoints.symm.trans hvertices)
        exact ⟨_, rfl, List.mem_map_of_mem hv⟩
    · have hyields := (read_of_record .pad hrecord).mp haccepted
      obtain ⟨drawn, -, rfl⟩ := yields_pad hyields
      obtain rfl := Primitive.pad.inj (List.mem_singleton.mp hpad)
      exact ⟨_, haccepted, mem_padExtents_iff.mpr (Or.inl ⟨_, hv, rfl⟩)⟩
    · have hyields := (read_of_record .pad hrecord).mp haccepted
      obtain ⟨drawn, -, rfl⟩ := yields_pad hyields
      obtain rfl := Primitive.pad.inj (List.mem_singleton.mp hpad)
      exact ⟨_, haccepted, mem_padExtents_iff.mpr (Or.inr ⟨houtline, hq⟩)⟩
  · rintro ⟨p, hread, hq⟩
    obtain ⟨kind, fields, hrecord, hyields⟩ := read_eq_ok_iff.mp hread
    cases hwidens : kind.widens with
    | false =>
      rw [(aside_of_not_widens hwidens hyields).1] at hq
      cases hq
    | true =>
      cases kind with
      | track =>
        have haccepted : (read c line).isOk = true := by
          rw [hread]
          rfl
        obtain ⟨width, layer, vertices, -, hvertices, rfl⟩ := yields_track hyields
        obtain ⟨v, hv, rfl⟩ := List.mem_map.mp hq
        exact .vertex hrecord haccepted hvertices hv
      | pad =>
        obtain ⟨drawn, -, rfl⟩ := yields_pad hyields
        rcases mem_padExtents_iff.mp hq with ⟨v, hv, rfl⟩ | ⟨houtline, hq⟩
        · exact .outline hrecord hread List.mem_cons_self hv
        · exact .corner hrecord hread List.mem_cons_self houtline hq
      | _ => cases hwidens

/-- One of the lines reports the point. -/
def Reported (c : FootprintContext) (lines : List String) (q : Point) : Prop :=
  ∃ line ∈ lines, IsExtent c line q

theorem mem_flatMap_accepted_iff :
    q ∈ (accepted c lines).flatMap (·.extents) ↔ Reported c lines q := by
  simp only [Reported, List.mem_flatMap, accepted, List.mem_filterMap, isExtent_iff]
  constructor
  · rintro ⟨p, ⟨line, hline, hread⟩, hq⟩
    cases hresult : read c line with
    | error skip =>
      rw [hresult] at hread
      cases hread
    | ok p' =>
      rw [hresult] at hread
      obtain rfl := Option.some.inj hread
      exact ⟨line, hline, p', hresult, hq⟩
  · rintro ⟨line, hline, p, hread, hq⟩
    exact ⟨p, ⟨line, hline, by rw [hread]; rfl⟩, hq⟩

end Placement

/-! ## Boxes -/

namespace Box

/-- The second box reaches as far as the first one on each side, or farther. -/
structure Grows (b b' : Box) : Prop where
  minX : b'.minX ≤ b.minX
  maxX : b.maxX ≤ b'.maxX
  minY : b'.minY ≤ b.minY
  maxY : b.maxY ≤ b'.maxY

/-- The bounds are the same numbers. -/
structure Agrees (b b' : Box) : Prop where
  minX : (b.minX == b'.minX) = true
  maxX : (b.maxX == b'.maxX) = true
  minY : (b.minY == b'.minY) = true
  maxY : (b.maxY == b'.maxY) = true

/-- The box holds the points, and on each side one of them lies on its bound. -/
structure Fits (b : Box) (points : Point → Prop) : Prop where
  contains : ∀ q, points q → b.contains q = true
  minX : ∃ q, points q ∧ (q.x == b.minX) = true
  maxX : ∃ q, points q ∧ (q.x == b.maxX) = true
  minY : ∃ q, points q ∧ (q.y == b.minY) = true
  maxY : ∃ q, points q ∧ (q.y == b.maxY) = true

/-- All bounds are numbers. -/
structure IsNumber (b : Box) : Prop where
  minX : Binary64.IsNumber b.minX
  maxX : Binary64.IsNumber b.maxX
  minY : Binary64.IsNumber b.minY
  maxY : Binary64.IsNumber b.maxY

theorem isNumber_empty : empty.IsNumber := by
  constructor <;> decide +kernel

variable {b : Box} {ps ps' : List Point} {q : Point}

/-- Each bound goes through one coordinate of the points by itself. -/
theorem foldl_widen (b : Box) (ps : List Point) :
    ps.foldl widen b =
      ⟨(ps.map (·.x)).foldl lesser b.minX, (ps.map (·.x)).foldl greater b.maxX,
        (ps.map (·.y)).foldl lesser b.minY, (ps.map (·.y)).foldl greater b.maxY⟩ := by
  induction ps generalizing b with
  | nil => rfl
  | cons p ps ih =>
    rw [List.foldl_cons, ih]
    rfl

theorem grows_foldl_widen (hb : b.IsNumber) (ps : List Point) : b.Grows (ps.foldl widen b) := by
  rw [foldl_widen]
  exact ⟨selects_lesser.foldl_before_start hb.minX _, selects_greater.foldl_before_start hb.maxX _,
    selects_lesser.foldl_before_start hb.minY _, selects_greater.foldl_before_start hb.maxY _⟩

theorem IsNumber.foldl_widen (hb : b.IsNumber) (ps : List Point) : (ps.foldl widen b).IsNumber := by
  rw [Box.foldl_widen]
  exact ⟨selects_lesser.isNumber_foldl hb.minX _, selects_greater.isNumber_foldl hb.maxX _,
    selects_lesser.isNumber_foldl hb.minY _, selects_greater.isNumber_foldl hb.maxY _⟩

theorem contains_foldl_widen (hb : b.IsNumber) (hq : q.IsNumber) (hmem : q ∈ ps) :
    (ps.foldl widen b).contains q = true := by
  have hx : q.x ∈ ps.map (·.x) := List.mem_map_of_mem hmem
  have hy : q.y ∈ ps.map (·.y) := List.mem_map_of_mem hmem
  rw [foldl_widen, contains]
  simp only [Bool.and_eq_true, decide_eq_true_iff]
  exact ⟨⟨⟨selects_lesser.foldl_before hb.minX hq.1 hx, selects_greater.foldl_before hb.maxX hq.1 hx⟩,
    selects_lesser.foldl_before hb.minY hq.2 hy⟩, selects_greater.foldl_before hb.maxY hq.2 hy⟩

/-- Points that are numbers have the bounds that they reach. -/
theorem fits_foldl_widen_iff (hb : b.IsNumber) (hps : ∀ q ∈ ps, q.IsNumber) :
    (ps.foldl widen b).Fits (· ∈ ps) ↔ (∃ q ∈ ps, q.x ≤ b.minX) ∧ (∃ q ∈ ps, q.x ≥ b.maxX) ∧
      (∃ q ∈ ps, q.y ≤ b.minY) ∧ ∃ q ∈ ps, q.y ≥ b.maxY := by
  have hfits : (ps.foldl widen b).Fits (· ∈ ps) ↔
      (∃ q ∈ ps, (q.x == (ps.foldl widen b).minX) = true) ∧
      (∃ q ∈ ps, (q.x == (ps.foldl widen b).maxX) = true) ∧
      (∃ q ∈ ps, (q.y == (ps.foldl widen b).minY) = true) ∧
      ∃ q ∈ ps, (q.y == (ps.foldl widen b).maxY) = true :=
    ⟨fun h => ⟨h.minX, h.maxX, h.minY, h.maxY⟩,
      fun ⟨h₁, h₂, h₃, h₄⟩ => ⟨fun q hq => contains_foldl_widen hb (hps q hq) hq, h₁, h₂, h₃, h₄⟩⟩
  have hx : ∀ q ∈ ps, Binary64.IsNumber q.x := fun q hq => (hps q hq).1
  have hy : ∀ q ∈ ps, Binary64.IsNumber q.y := fun q hq => (hps q hq).2
  rw [hfits, foldl_widen]
  exact and_congr (selects_lesser.exists_beq_foldl_map_iff hb.minX _ hx)
    (and_congr (selects_greater.exists_beq_foldl_map_iff hb.maxX _ hx)
      (and_congr (selects_lesser.exists_beq_foldl_map_iff hb.minY _ hy)
        (selects_greater.exists_beq_foldl_map_iff hb.maxY _ hy)))

theorem isEmpty_of_contains (h : b.contains q = true) : b.isEmpty = false := by
  simp only [contains, Bool.and_eq_true, decide_eq_true_iff] at h
  obtain ⟨⟨⟨hminX, hmaxX⟩, hminY⟩, hmaxY⟩ := h
  have hx : ¬ b.maxX < b.minX := not_lt_of_le (le_trans hminX hmaxX)
  have hy : ¬ b.maxY < b.minY := not_lt_of_le (le_trans hminY hmaxY)
  simp only [isEmpty, hx, hy, decide_false, Bool.or_false]

theorem agrees_foldl_widen (hb : b.IsNumber) (hperm : ps.Perm ps') :
    (ps.foldl widen b).Agrees (ps'.foldl widen b) := by
  rw [foldl_widen, foldl_widen]
  exact ⟨selects_lesser.foldl_perm hb.minX (hperm.map _), selects_greater.foldl_perm hb.maxX (hperm.map _),
    selects_lesser.foldl_perm hb.minY (hperm.map _), selects_greater.foldl_perm hb.maxY (hperm.map _)⟩

end Box

/-! ## The box of a board -/

namespace Board

open Placement (Reported)

variable (c : FootprintContext) (lines : List String)

/-- **The box covers the tracks and pads in any order.** It never shrinks along the fold, it holds every
point that a track or a pad reports, and lines in another order give the same box. -/
theorem box_covers_in_any_order :
    (∀ before after, lines = before ++ after →
      (ofLines c before).value.box.Grows (ofLines c lines).value.box) ∧
    (∀ q, Reported c lines q → q.IsNumber → (ofLines c lines).value.box.contains q = true) ∧
    ∀ lines', lines.Perm lines' → (ofLines c lines).value.box.Agrees (ofLines c lines').value.box := by
  refine ⟨?_, ?_, ?_⟩
  · rintro before after rfl
    rw [box_ofLines, box_ofLines, Placement.accepted_append, List.flatMap_append, List.foldl_append]
    exact Box.grows_foldl_widen (Box.isNumber_empty.foldl_widen _) _
  · intro q hreported hq
    rw [box_ofLines]
    exact Box.contains_foldl_widen Box.isNumber_empty hq
      (Placement.mem_flatMap_accepted_iff.mpr hreported)
  · intro lines' hperm
    rw [box_ofLines, box_ofLines]
    exact Box.agrees_foldl_widen Box.isNumber_empty ((hperm.filterMap _).flatMap_right _)

/-- A drawing that counts from the corner of the canvas, without models. -/
def fromCorner : FootprintContext := ⟨.board .zero, none⟩

/-- A track, a via, which is skipped, and a pad with three vertices. -/
def trackAndPad : List String :=
  ["TRACK~1~1~10 20 30 40", "VIA~1", "PAD~POLYGON~100~100~10~10~1~1~0~90 90 110 90 100 120"]

theorem extents_trackAndPad : (Placement.accepted fromCorner trackAndPad).flatMap (·.extents) =
    [⟨2.54, 5.08⟩, ⟨7.62, 10.16⟩, ⟨22.86, 22.86⟩, ⟨27.94, 22.86⟩, ⟨25.4, 30.48⟩] := by
  decide +kernel

theorem box_covers_in_any_order_trackAndPad :
    (ofLines fromCorner ["TRACK~1~1~10 20 30 40"]).value.box.Grows
      (ofLines fromCorner trackAndPad).value.box ∧
    (Reported fromCorner trackAndPad ⟨25.4, 30.48⟩ ∧
      (ofLines fromCorner trackAndPad).value.box.contains ⟨25.4, 30.48⟩ = true) ∧
    (ofLines fromCorner trackAndPad).value.box.Agrees
      (ofLines fromCorner trackAndPad.reverse).value.box := by
  obtain ⟨hgrows, hcontains, hagrees⟩ := box_covers_in_any_order fromCorner trackAndPad
  have hreported : Reported fromCorner trackAndPad ⟨25.4, 30.48⟩ := by
    rw [← Placement.mem_flatMap_accepted_iff, extents_trackAndPad]
    decide +kernel
  exact ⟨hgrows _ _ rfl, ⟨hreported, hcontains _ hreported (by decide +kernel)⟩,
    hagrees _ trackAndPad.reverse_perm.symm⟩

/-- **When the box is exact.** With points that are all finite, at least one of them, the box fits them just
if on each side one of them lies within the reach at which the bound starts; the center is the middle of the
bounds. -/
theorem box_fits_iff (hsome : ∃ q, Reported c lines q) (hfinite : ∀ q, Reported c lines q → q.IsFinite) :
    ((ofLines c lines).value.box.Fits (Reported c lines) ↔
      (∃ q, Reported c lines q ∧ q.x ≤ Box.reach) ∧ (∃ q, Reported c lines q ∧ q.x ≥ -Box.reach) ∧
      (∃ q, Reported c lines q ∧ q.y ≤ Box.reach) ∧ ∃ q, Reported c lines q ∧ q.y ≥ -Box.reach) ∧
    (ofLines c lines).value.box.center =
      ⟨((ofLines c lines).value.box.minX + (ofLines c lines).value.box.maxX) / 2,
        ((ofLines c lines).value.box.minY + (ofLines c lines).value.box.maxY) / 2⟩ := by
  have hreported : Reported c lines = (· ∈ (Placement.accepted c lines).flatMap (·.extents)) := by
    funext q
    exact propext Placement.mem_flatMap_accepted_iff.symm
  rw [hreported] at hsome hfinite ⊢
  have hnumber := fun q hq => (hfinite q hq).isNumber
  refine ⟨?_, ?_⟩
  · rw [box_ofLines]
    exact Box.fits_foldl_widen_iff Box.isNumber_empty hnumber
  · -- A box that holds a point is not empty, and the center of an empty one is the origin.
    obtain ⟨q, hq⟩ := hsome
    have hcontains := Box.contains_foldl_widen Box.isNumber_empty (hnumber q hq) hq
    rw [← box_ofLines] at hcontains
    rw [Box.center, Box.isEmpty_of_contains hcontains, if_neg Bool.false_ne_true]

theorem box_fits_trackAndPad :
    (∃ q, Reported fromCorner trackAndPad q) ∧ (∀ q, Reported fromCorner trackAndPad q → q.IsFinite) ∧
      (ofLines fromCorner trackAndPad).value.box.Fits (Reported fromCorner trackAndPad) := by
  have hreported (q : Point) : Reported fromCorner trackAndPad q ↔
      q ∈ ([⟨2.54, 5.08⟩, ⟨7.62, 10.16⟩, ⟨22.86, 22.86⟩, ⟨27.94, 22.86⟩, ⟨25.4, 30.48⟩] : List Point) := by
    rw [← Placement.mem_flatMap_accepted_iff, extents_trackAndPad]
  have hsome : ∃ q, Reported fromCorner trackAndPad q := ⟨_, (hreported _).mpr List.mem_cons_self⟩
  have hfinite (q : Point) (hq : Reported fromCorner trackAndPad q) : q.IsFinite := by
    revert q
    simp only [hreported]
    decide +kernel
  refine ⟨hsome, hfinite, (box_fits_iff fromCorner trackAndPad hsome hfinite).1.mpr ?_⟩
  simp only [hreported]
  decide +kernel

/-- A track far to the right of where the drawing counts from. -/
def farTrack : List String := ["TRACK~1~1~50000 0 60000 0"]

/-- The left bound of a track beyond the reach stays where the box starts, and the center is off. -/
theorem box_misses_farTrack :
    (∃ q, Reported fromCorner farTrack q) ∧ (∀ q, Reported fromCorner farTrack q → q.IsFinite) ∧
      ¬ (ofLines fromCorner farTrack).value.box.Fits (Reported fromCorner farTrack) ∧
      (ofLines fromCorner farTrack).value.box.center = ⟨12620, 0⟩ := by
  have hreported (q : Point) : Reported fromCorner farTrack q ↔
      q ∈ ([⟨12700, 0⟩, ⟨15240, 0⟩] : List Point) := by
    have hextents : (Placement.accepted fromCorner farTrack).flatMap (·.extents) =
        [⟨12700, 0⟩, ⟨15240, 0⟩] := by
      decide +kernel
    rw [← Placement.mem_flatMap_accepted_iff, hextents]
  refine ⟨⟨_, (hreported _).mpr List.mem_cons_self⟩, ?_, ?_, by decide +kernel⟩
  · simp only [hreported]
    decide +kernel
  · intro hfits
    have hminX : ¬ ∃ q ∈ ([⟨12700, 0⟩, ⟨15240, 0⟩] : List Point),
        (q.x == (ofLines fromCorner farTrack).value.box.minX) = true := by
      decide +kernel
    obtain ⟨q, hq, heq⟩ := hfits.minX
    exact hminX ⟨q, (hreported q).mp hq, heq⟩

end Board

end EdaParts
