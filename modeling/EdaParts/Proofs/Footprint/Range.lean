import EdaParts.Component.Source
import EdaParts.Proofs.Decimal.Finite
import EdaParts.Proofs.Footprint.Placements

/-!
# Sizes of the numbers of footprints

A footprint whose origin and records are read to numbers below `2 ^ 256` is drawn with numbers below `2 ^ 600`, far
within the range of doubles. Nothing of this holds for an origin or a model that is placed at no number, since
only the fields of records are refused then.

* `Footprint.numbers`, `FootprintSource.numbers` : the numbers of a footprint, and those that its source is read to;
* `Placement.below_of_yields` : what a record of near numbers places;
* `Board.below_ofLines`, `Board.below_finish` : a run over near lines, and the footprint that it ends with.
-/

namespace EdaParts

open Binary64 Reading

/-! ## Numbers -/

def Point.numbers (p : Point) : List Float := [p.x, p.y]

def Triple.numbers (t : Triple) : List Float := [t.x, t.y, t.z]

def Drill.numbers : Drill → List Float
  | round d => [d]
  | slot w h => [w, h]

def Pad.numbers (p : Pad) : List Float :=
  p.position.numbers ++ p.size.numbers ++ [p.rotation] ++ p.drill.toList.flatMap Drill.numbers ++
    p.outline.flatMap Point.numbers

def Primitive.numbers : Primitive → List Float
  | line start stop width _ => start.numbers ++ stop.numbers ++ [width]
  | arc center start mid stop angle width _ =>
    center.numbers ++ start.numbers ++ mid.numbers ++ stop.numbers ++ [angle, width]
  | circle center radius width _ => center.numbers ++ [radius, width]
  | rect start stop width _ => start.numbers ++ stop.numbers ++ [width]
  | pad p => p.numbers

def ModelRef.numbers (m : ModelRef) : List Float := m.offset.numbers ++ m.rotation.numbers

/-- The numbers of a footprint, in its texts, its primitives and its model. -/
def Footprint.numbers (f : Footprint) : List Float :=
  f.texts.flatMap (·.position.numbers) ++ f.primitives.flatMap Primitive.numbers ++
    f.model.toList.flatMap ModelRef.numbers

/-- The size of all numbers is below `2 ^ k`. -/
def AllBelow (k : Nat) (xs : List Float) : Prop := ∀ x ∈ xs, Below k x

instance (k : Nat) (xs : List Float) : Decidable (AllBelow k xs) :=
  inferInstanceAs (Decidable (∀ x ∈ xs, Below k x))

section
variable {k c : Nat} {p q : Point} {xs : List Float}

@[simp] theorem allBelow_nil (k : Nat) : AllBelow k [] := List.forall_mem_nil _

@[simp] theorem allBelow_cons (k : Nat) (x : Float) (xs : List Float) :
    AllBelow k (x :: xs) ↔ Below k x ∧ AllBelow k xs := List.forall_mem_cons

@[simp] theorem allBelow_append (k : Nat) (xs ys : List Float) :
    AllBelow k (xs ++ ys) ↔ AllBelow k xs ∧ AllBelow k ys := List.forall_mem_append

theorem allBelow_flatMap {α : Type} {as : List α} {f : α → List Float} :
    AllBelow k (as.flatMap f) ↔ ∀ a ∈ as, AllBelow k (f a) := List.forall_mem_flatMap

theorem AllBelow.mono (h : AllBelow k xs) (hk : k ≤ c) : AllBelow c xs :=
  fun x hx => (h x hx).mono hk

theorem AllBelow.inReach (h : AllBelow k xs) (hk : k ≤ 1009) : ∀ x ∈ xs, InReach x :=
  fun x hx => (h x hx).inReach hk

theorem Point.below_iff : AllBelow k p.numbers ↔ Below k p.x ∧ Below k p.y := by
  simp [numbers]

theorem Point.below_add (hp : AllBelow k p.numbers) (hq : AllBelow k q.numbers) (hk : k + 2 ≤ c) (hc : c ≤ 1024) :
    AllBelow c (p + q).numbers := by
  rw [below_iff] at hp hq ⊢
  exact ⟨hp.1.add hq.1 hk hc, hp.2.add hq.2 hk hc⟩

theorem Point.below_sub (hp : AllBelow k p.numbers) (hq : AllBelow k q.numbers) (hk : k + 2 ≤ c) (hc : c ≤ 1024) :
    AllBelow c (p - q).numbers := by
  rw [below_iff] at hp hq ⊢
  exact ⟨hp.1.sub hq.1 hk hc, hp.2.sub hq.2 hk hc⟩

theorem below_snap {x y : Float} (hx : Below k x) (hy : Below k y) (hk : k + 16 ≤ c) (hk' : 57 ≤ c)
    (hc : c ≤ 1024) : AllBelow c (Placement.snap x y).numbers :=
  Point.below_iff.mpr ⟨hx.roundTo isFactor_boardPlaces hk hk' hc, hy.roundTo isFactor_boardPlaces hk hk' hc⟩

end

/-! ## What lines are read to -/

/-- The finite numbers that fields spell, as a whole or between blanks. -/
def Fields.spelled (f : Fields) : List Float :=
  f.values.flatMap fun s => (s.toList :: Text.words s.toList).filterMap finiteNumber?

def Arc.numbers (a : Arc) : List Float :=
  a.center.numbers ++ a.start.numbers ++ a.mid.numbers ++ a.stop.numbers ++ [a.sweepAngle]

/-- The numbers that place a model. -/
def ModelNode.numbers (n : ModelNode) : List Float :=
  (n.origin.toList ++ n.rotation.toList).flatMap (fun text => (readTriple text).numbers) ++ [canvasHeight n.height]

namespace Placement

/-- The sine and the cosine of the angles that a pad may be turned by. -/
def turns (f : Fields) : List Float :=
  (0 :: ((f.number? 9).toOption.join).toList).flatMap fun x => [(radians x).sin, (radians x).cos]

/-- The arc that a record draws. -/
def drawnArc? (f : Fields) : Option Arc := do
  let path ← (arcPath f).toOption
  match (← (Element.ofPath path).toOption).drop 1 with
  | .arc a :: _ => some a
  | _ => none

/-- The model that the document of a record describes. -/
def node? (f : Fields) : Option ModelNode :=
  (f.text 0).toOption.bind fun text => (ModelNode.read text).toOption

/-- The numbers that the fields of a record are read to. -/
def numbersOfKind (kind : FootprintKind) (f : Fields) : List Float :=
  f.spelled ++
    match kind with
    | .pad => turns f
    | .arc => (drawnArc? f).toList.flatMap Arc.numbers
    | .svgNode => (node? f).toList.flatMap ModelNode.numbers
    | _ => []

/-- The numbers that a line is read to. -/
def lineNumbers (line : String) : List Float :=
  (Record.ofLine? line).toList.flatMap fun r =>
    (FootprintKind.ofTag r.tag).toOption.toList.flatMap fun kind => numbersOfKind kind ⟨kind.tag, r.fields⟩

end Placement

/-- The numbers that an origin and records are read to. -/
def FootprintSource.numbers (source : FootprintSource) : List Float :=
  source.origin.numbers ++ source.shapes.flatMap Placement.lineNumbers

/-! ## Fields -/

namespace Fields

variable {f : Fields} {i : Nat} {x : Float}

theorem mem_spelled {s : String} {cs : List Char} (hs : f.get? i = some s)
    (hcs : cs ∈ s.toList :: Text.words s.toList) (hx : finiteNumber? cs = some x) : x ∈ f.spelled :=
  List.mem_flatMap.mpr ⟨s, List.mem_of_getElem? hs, List.mem_filterMap.mpr ⟨cs, hcs, hx⟩⟩

theorem mem_spelled_of_number (h : f.number i = .ok x) : x ∈ f.spelled := by
  obtain ⟨s, hs, hx⟩ := bind_eq_ok_iff.mp h
  exact mem_spelled (text_eq_ok_iff.mp hs) List.mem_cons_self (numberIn_eq_ok_iff.mp hx)

theorem mem_spelled_of_number? (h : f.number? i = .ok (some x)) : x ∈ f.spelled := by
  unfold number? at h
  split at h
  · next s hs =>
    cases hx : f.numberIn i s.toList with
    | error skip =>
      rw [hx] at h
      nomatch h
    | ok y =>
      rw [hx] at h
      obtain rfl := Option.some.inj (Except.ok.inj h)
      exact mem_spelled hs List.mem_cons_self (numberIn_eq_ok_iff.mp hx)
  · nomatch h

theorem mem_of_mem_pairUp (xs : List Float) : ∀ x ∈ (pairUp xs).flatMap Point.numbers, x ∈ xs := by
  induction xs using pairUp.induct with
  | case1 x y xs ih =>
    intro z hz
    rw [pairUp, List.flatMap_cons, List.mem_append] at hz
    rcases hz with hz | hz
    · rcases List.mem_pair.mp hz with rfl | rfl
      · exact List.mem_cons_self
      · exact List.mem_cons_of_mem _ List.mem_cons_self
    · exact List.mem_cons_of_mem _ (List.mem_cons_of_mem _ (ih z hz))
  | case2 xs hxs =>
    unfold pairUp
    split
    · next x y rest => exact absurd rfl (hxs x y rest)
    · exact List.forall_mem_nil _

theorem mem_of_mapM_numberIn {words : List (List Char)} {xs : List Float} (h : words.mapM (f.numberIn i) = .ok xs) :
    ∀ x ∈ xs, ∃ cs ∈ words, finiteNumber? cs = some x := by
  induction words generalizing xs with
  | nil =>
    obtain rfl := Except.ok.inj h
    exact List.forall_mem_nil _
  | cons cs words ih =>
    rw [List.mapM_cons] at h
    obtain ⟨y, hy, h⟩ := bind_eq_ok_iff.mp h
    obtain ⟨ys, hys, h⟩ := bind_eq_ok_iff.mp h
    obtain rfl := Except.ok.inj h
    rw [List.forall_mem_cons]
    refine ⟨⟨cs, List.mem_cons_self, numberIn_eq_ok_iff.mp hy⟩, fun x hx => ?_⟩
    obtain ⟨ds, hds, hx⟩ := ih hys x hx
    exact ⟨ds, List.mem_cons_of_mem _ hds, hx⟩

theorem mem_spelled_of_points {ps : List Point} (h : f.points i = .ok ps) :
    ∀ x ∈ ps.flatMap Point.numbers, x ∈ f.spelled := by
  obtain ⟨s, hs, h⟩ := bind_eq_ok_iff.mp h
  obtain ⟨xs, hxs, h⟩ := bind_eq_ok_iff.mp h
  obtain rfl := Except.ok.inj h
  intro x hx
  obtain ⟨cs, hcs, hx⟩ := mem_of_mapM_numberIn hxs x (mem_of_mem_pairUp xs x hx)
  exact mem_spelled (text_eq_ok_iff.mp hs) (List.mem_cons_of_mem _ hcs) hx

end Fields

/-! ## Frames -/

/-- The origin is near, and lengths do not grow. -/
structure Frame.IsNear (frame : Frame) : Prop where
  origin : AllBelow 256 frame.origin.numbers
  scale : Below 1 frame.scale

theorem Frame.isNear_board {origin : Point} (h : AllBelow 256 origin.numbers) : (Frame.board origin).IsNear where
  origin := h
  scale := by
    show Below 1 (10 * millimetresPerMil)
    decide

section
variable {frame : Frame} {p : Point} {x : Float}

theorem Frame.IsNear.point (h : frame.IsNear) (hp : AllBelow 256 p.numbers) :
    AllBelow 280 (frame.point p).numbers := by
  have hmoved := Point.below_iff.mp (Point.below_sub hp h.origin (c := 258) (by decide) (by decide))
  have hscaled {y : Float} (hy : Below 258 y) : Below 260 (y * frame.scale) :=
    hy.mul h.scale (by decide) (by decide)
  exact below_snap (hscaled hmoved.1) (hscaled hmoved.2) (by decide) (by decide) (by decide)

theorem Frame.IsNear.length (h : frame.IsNear) (hx : Below 262 x) : Below 280 (frame.length x) := by
  have hscaled : Below 264 (x * frame.scale) := hx.mul h.scale (by decide) (by decide)
  exact hscaled.roundTo isFactor_boardPlaces (by decide) (by decide) (by decide)

end

/-! ## What records place -/

/-- The numbers of what one record adds. -/
def Placement.numbers (p : Placement) : List Float :=
  p.primitives.flatMap Primitive.numbers ++ p.extents.flatMap Point.numbers ++ p.model.toList.flatMap ModelRef.numbers

/-- A resolver that gives models near numbers wherever they are placed near. -/
def Resolver.KeepsNear (resolve : Resolver) : Prop :=
  ∀ identifier (placement : ModelPlacement),
    AllBelow 280 (placement.origin.numbers ++ [placement.height] ++ placement.rotation.numbers) →
    ∀ m ∈ resolve identifier placement, AllBelow 280 m.numbers

theorem Resolver.keepsNear_inDirectory (directory : String) (name : Option String) :
    (inDirectory directory name).KeepsNear := by
  intro identifier placement hplacement m hm
  unfold inDirectory at hm
  dsimp only at hm
  split at hm
  · nomatch hm
  · obtain rfl := Option.some.inj hm
    simp only [allBelow_append, allBelow_cons, Point.numbers, Triple.numbers, ModelRef.numbers, allBelow_nil,
      and_true] at hplacement ⊢
    obtain ⟨⟨⟨hx, hy⟩, hheight⟩, hturnX, hturnY, hturnZ⟩ := hplacement
    exact ⟨⟨hx, hy.neg (by decide), hheight⟩, hturnX.neg (by decide), hturnY.neg (by decide),
      hturnZ.neg (by decide)⟩

namespace Placement

variable {c : FootprintContext} {f : Fields} {p : Placement}

theorem below_segments {width : Float} {layer : Layer} {nodes : List Point} (hwidth : Below 280 width)
    (hnodes : AllBelow 280 (nodes.flatMap Point.numbers)) :
    AllBelow 280 ((segments width layer nodes).flatMap Primitive.numbers) := by
  induction nodes with
  | nil => exact allBelow_nil _
  | cons p nodes ih =>
    cases nodes with
    | nil => exact allBelow_nil _
    | cons q nodes =>
      rw [List.flatMap_cons, allBelow_append] at hnodes
      have hq := hnodes.2
      rw [List.flatMap_cons, allBelow_append] at hq
      rw [segments, List.flatMap_cons, allBelow_append]
      refine ⟨?_, ih hnodes.2⟩
      simp only [Primitive.numbers, allBelow_append, allBelow_cons, allBelow_nil, and_true]
      exact ⟨⟨hnodes.1, hq.1⟩, hwidth⟩

theorem below_padExtents {position size : Point} {rotation : Float} {outline : List Point}
    (hposition : AllBelow 280 position.numbers) (hsize : AllBelow 280 size.numbers)
    (hturn : AllBelow 256 [(radians rotation).sin, (radians rotation).cos])
    (houtline : AllBelow 300 (outline.flatMap Point.numbers)) :
    AllBelow 560 ((padExtents position size rotation outline).flatMap Point.numbers) := by
  obtain ⟨hx, hy⟩ := Point.below_iff.mp hposition
  obtain ⟨hwidth, hheight⟩ := Point.below_iff.mp hsize
  unfold padExtents
  split
  · have htwo : AtLeast 2 2 := by decide
    have hhalf {x : Float} (hx : Below 280 x) : Below 280 (x / 2) := hx.div htwo (by decide) (by decide) (by decide)
    simp only [allBelow_cons, allBelow_nil, and_true] at hturn
    obtain ⟨hsin, hcos⟩ := hturn
    have hreach {x y a b : Float} (hx : Below 280 x) (hy : Below 280 y) (ha : Below 256 a) (hb : Below 256 b) :
        Below 539 ((x / 2 * a).abs + (y / 2 * b).abs) :=
      (((hhalf hx).mul ha (c := 537) (by decide) (by decide)).abs (by decide)).add
        (((hhalf hy).mul hb (by decide) (by decide)).abs (by decide)) (by decide) (by decide)
    have hcorner {x d : Float} (hx : Below 280 x) (hd : Below 539 d) : Below 541 (x - d) ∧ Below 541 (x + d) :=
      ⟨(hx.mono (by decide)).sub hd (by decide) (by decide), (hx.mono (by decide)).add hd (by decide) (by decide)⟩
    have hright := hcorner hx (hreach hwidth hheight hcos hsin)
    have hbottom := hcorner hy (hreach hwidth hheight hsin hcos)
    simp only [List.flatMap_cons, List.flatMap_nil, allBelow_append, allBelow_nil, and_true]
    exact ⟨below_snap hright.1 hbottom.1 (by decide) (by decide) (by decide),
      below_snap hright.2 hbottom.2 (by decide) (by decide) (by decide)⟩
  · rw [allBelow_flatMap, List.forall_mem_map]
    intro q hq
    obtain ⟨hqx, hqy⟩ := Point.below_iff.mp (allBelow_flatMap.mp houtline q hq)
    exact below_snap ((hx.mono (by decide)).add hqx (c := 302) (by decide) (by decide))
      ((hy.mono (by decide)).add hqy (by decide) (by decide)) (by decide) (by decide) (by decide)

section
variable (hframe : c.frame.IsNear) (hf : AllBelow 256 f.spelled)
include hframe hf

theorem below_length {i : Nat} {x : Float} (hx : f.number i = .ok x) : Below 280 (c.frame.length x) :=
  hframe.length (Below.mono (hf x (Fields.mem_spelled_of_number hx)) (by decide))

theorem below_point {i j : Nat} {x y : Float} (hx : f.number i = .ok x) (hy : f.number j = .ok y) :
    AllBelow 280 (c.frame.point ⟨x, y⟩).numbers :=
  hframe.point (Point.below_iff.mpr
    ⟨hf x (Fields.mem_spelled_of_number hx), hf y (Fields.mem_spelled_of_number hy)⟩)

theorem below_vertices {i : Nat} {vertices : List Point} (h : f.points i = .ok vertices) :
    ∀ v ∈ vertices, AllBelow 280 (c.frame.point v).numbers :=
  fun _ hv => hframe.point fun x hx => hf x (Fields.mem_spelled_of_points h x (List.mem_flatMap_of_mem hv hx))

theorem below_padDrill {hole : Float} {d : Drill} (hhole : Below 256 hole) (h : padDrill c f hole = .ok d) :
    AllBelow 280 d.numbers := by
  have htwo : Below 2 2 := by decide
  have hdiameter : Below 280 (c.frame.length (hole * 2)) :=
    hframe.length (hhole.mul htwo (by decide) (by decide))
  unfold padDrill at h
  obtain ⟨slot, hslot, h⟩ := bind_eq_ok_iff.mp h
  have hdrill {length diameter : Float} (hlength : Below 280 length) (hdiameter : Below 280 diameter) :
      AllBelow 280 (if length > 0 && length != diameter then Drill.slot length diameter
        else .round diameter).numbers := by
    split
    · exact List.forall_mem_cons.mpr ⟨hlength, List.forall_mem_singleton.mpr hdiameter⟩
    · exact List.forall_mem_singleton.mpr hdiameter
  obtain rfl := Except.ok.inj h
  cases slot with
  | none => exact hdrill (below_zero 280) hdiameter
  | some x => exact hdrill (hframe.length ((hf x (Fields.mem_spelled_of_number? hslot)).mono (by decide))) hdiameter

theorem below_padOutline {position : Point} {outline : List Point} (hposition : AllBelow 280 position.numbers)
    (h : padOutline c f position = .ok outline) : AllBelow 300 (outline.flatMap Point.numbers) := by
  obtain ⟨vertices, hvertices, h⟩ := bind_eq_ok_iff.mp h
  obtain rfl := Except.ok.inj h
  rw [allBelow_flatMap, List.forall_mem_map]
  intro v hv
  have hoffset := Point.below_iff.mp
    (Point.below_sub (below_vertices hframe hf hvertices v hv) hposition (c := 282) (by decide) (by decide))
  exact below_snap hoffset.1 hoffset.2 (by decide) (by decide) (by decide)

theorem below_pad {drawn : Pad} (h : IsPadOf c f drawn) :
    AllBelow 280 drawn.position.numbers ∧ AllBelow 280 drawn.size.numbers ∧ Below 256 drawn.rotation ∧
      AllBelow 280 (drawn.drill.toList.flatMap Drill.numbers) ∧
      AllBelow 300 (drawn.outline.flatMap Point.numbers) := by
  have hposition : AllBelow 280 drawn.position.numbers := by
    obtain ⟨x, y, hx, hy, hposition⟩ := h.position
    rw [hposition]
    exact below_point hframe hf hx hy
  refine ⟨hposition, ?_, ?_, ?_, ?_⟩
  · obtain ⟨width, height, hwidth, hheight, hsize⟩ := h.size
    rw [hsize]
    exact Point.below_iff.mpr ⟨below_length hframe hf hwidth, below_length hframe hf hheight⟩
  · rcases h.rotation with hzero | hrotation
    · rw [hzero]
      exact below_zero 256
    · exact hf _ (Fields.mem_spelled_of_number? hrotation)
  · obtain ⟨hole, hhole, -, -, hdrill⟩ := h.hole
    split at hdrill
    · obtain ⟨d, hd, hdrill⟩ := hdrill
      rw [hdrill, Option.toList_some, List.flatMap_singleton]
      exact below_padDrill hframe hf (hf hole (Fields.mem_spelled_of_number hhole)) hd
    · rw [hdrill]
      exact allBelow_nil 280
  · have houtline := h.outline
    split at houtline
    · exact below_padOutline hframe hf hposition houtline
    · rw [houtline]
      exact allBelow_nil 300

theorem below_of_yields_pad (hturns : AllBelow 256 (turns f)) (h : (pad c f).Yields p) : AllBelow 560 p.numbers := by
  obtain ⟨drawn, hpad, rfl⟩ := yields_pad h
  obtain ⟨hposition, hsize, hrotation, hdrill, houtline⟩ := below_pad hframe hf hpad
  have hturn : AllBelow 256 [(radians drawn.rotation).sin, (radians drawn.rotation).cos] := by
    refine allBelow_flatMap.mp hturns drawn.rotation ?_
    rcases hpad.rotation with hzero | hread
    · rw [hzero]
      exact List.mem_cons_self
    · rw [hread]
      exact List.mem_cons_of_mem _ (List.mem_singleton_self _)
  simp only [numbers, Primitive.numbers, Pad.numbers, List.flatMap_singleton, allBelow_append]
  refine ⟨⟨⟨⟨⟨⟨?_, ?_⟩, ?_⟩, ?_⟩, ?_⟩, below_padExtents hposition hsize hturn houtline⟩, allBelow_nil _⟩
  · exact hposition.mono (by decide)
  · exact hsize.mono (by decide)
  · exact List.forall_mem_singleton.mpr (hrotation.mono (by decide))
  · exact hdrill.mono (by decide)
  · exact houtline.mono (by decide)

theorem below_of_yields_track (h : (track c f).Yields p) : AllBelow 280 p.numbers := by
  obtain ⟨width, layer, vertices, hwidth, hvertices, rfl⟩ := yields_track h
  have hnodes : AllBelow 280 ((vertices.map c.frame.point).flatMap Point.numbers) := by
    rw [allBelow_flatMap, List.forall_mem_map]
    exact below_vertices hframe hf hvertices
  simp only [numbers, allBelow_append]
  exact ⟨⟨below_segments (below_length hframe hf hwidth) hnodes, hnodes⟩, allBelow_nil _⟩

theorem below_of_yields_arc (harcs : AllBelow 256 ((drawnArc? f).toList.flatMap Arc.numbers))
    (h : (arc c f).Yields p) : AllBelow 280 p.numbers := by
  obtain ⟨width, path, e, a, rest, layer, hwidth, hpath, helements, rfl⟩ := yields_arc h
  have harc : drawnArc? f = some a := by
    rw [drawnArc?, hpath]
    show (Element.ofPath path).toOption.bind _ = _
    rw [helements]
    rfl
  rw [harc, Option.toList_some, List.flatMap_singleton] at harcs
  simp only [Arc.numbers, allBelow_append, allBelow_cons, allBelow_nil, and_true] at harcs
  obtain ⟨⟨⟨⟨hcenter, hstart⟩, hmid⟩, hstop⟩, hsweep⟩ := harcs
  have hunit : Below 7 (180 / Binary64.pi) := by decide
  have hdegrees : Below 264 (-degrees a.sweepAngle) :=
    (hsweep.mul hunit (by decide) (by decide)).neg (by decide)
  simp only [numbers, single, Primitive.numbers, List.flatMap_singleton, allBelow_append, allBelow_cons]
  exact ⟨⟨⟨⟨⟨⟨hframe.point hcenter, hframe.point hstop⟩, hframe.point hmid⟩, hframe.point hstart⟩,
    hdegrees.roundTo isFactor_boardPlaces (by decide) (by decide) (by decide), below_length hframe hf hwidth,
    allBelow_nil _⟩, allBelow_nil _⟩, allBelow_nil _⟩

theorem below_of_yields_circle (h : (circle c f).Yields p) : AllBelow 280 p.numbers := by
  obtain ⟨x, y, radius, width, layer, hx, hy, hradius, hwidth, rfl⟩ := yields_circle h
  simp only [numbers, single, Primitive.numbers, List.flatMap_singleton, allBelow_append, allBelow_cons]
  exact ⟨⟨⟨below_point hframe hf hx hy, below_length hframe hf hradius, below_length hframe hf hwidth,
    allBelow_nil _⟩, allBelow_nil _⟩, allBelow_nil _⟩

theorem below_of_yields_rect (h : (rect c f).Yields p) : AllBelow 300 p.numbers := by
  obtain ⟨x, y, width, height, layer, hx, hy, hwidth, hheight, rfl⟩ := yields_rect h
  have hstart := below_point hframe hf hx hy
  obtain ⟨hleft, htop⟩ := Point.below_iff.mp hstart
  have hright := hleft.add (below_length hframe hf hwidth) (c := 282) (by decide) (by decide)
  have hbottom := htop.add (below_length hframe hf hheight) (c := 282) (by decide) (by decide)
  have hpen : Below 300 rectWidth := by decide
  simp only [numbers, single, Primitive.numbers, List.flatMap_singleton, allBelow_append, allBelow_cons]
  exact ⟨⟨⟨⟨hstart.mono (by decide), below_snap hright hbottom (by decide) (by decide) (by decide)⟩, hpen,
    allBelow_nil _⟩, allBelow_nil _⟩, allBelow_nil _⟩

end

theorem below_placement {n : ModelNode} (hframe : c.frame.IsNear) (hn : AllBelow 256 n.numbers) :
    AllBelow 280 ((n.placement c.frame).origin.numbers ++ [(n.placement c.frame).height] ++
      (n.placement c.frame).rotation.numbers) := by
  rw [ModelNode.numbers, allBelow_append, allBelow_flatMap, List.forall_mem_append] at hn
  obtain ⟨⟨horigin, hrotation⟩, hheight⟩ := hn
  rw [allBelow_append, allBelow_append]
  refine ⟨⟨?_, ?_⟩, ?_⟩
  · unfold ModelNode.placement
    cases hcase : n.origin with
    | none => exact Point.below_iff.mpr ⟨below_zero 280, below_zero 280⟩
    | some text =>
      have hnear := horigin text (by rw [hcase]; exact List.mem_singleton_self text)
      simp only [Triple.numbers, allBelow_cons] at hnear
      exact hframe.point (Point.below_iff.mpr ⟨hnear.1, hnear.2.1⟩)
  · refine List.forall_mem_singleton.mpr (hframe.length ?_)
    exact Below.mono (hheight _ (List.mem_singleton_self _)) (by decide)
  · unfold ModelNode.placement
    cases hcase : n.rotation with
    | none =>
      simp only [Triple.numbers, allBelow_cons, allBelow_nil, and_true]
      exact ⟨below_zero 280, below_zero 280, below_zero 280⟩
    | some text =>
      exact AllBelow.mono (hrotation text (by rw [hcase]; exact List.mem_singleton_self text)) (by decide)

theorem below_of_yields_modelNode (hframe : c.frame.IsNear)
    (hresolver : ∀ resolve ∈ c.resolver, Resolver.KeepsNear resolve)
    (hnode : AllBelow 256 ((node? f).toList.flatMap ModelNode.numbers)) (h : (modelNode c f).Yields p) :
    AllBelow 280 p.numbers := by
  obtain ⟨text, node, htext, hread, rfl⟩ := yields_modelNode h
  have hfound : node? f = some node := by
    rw [node?, htext]
    show (ModelNode.read text).toOption = some node
    rw [hread]
    rfl
  rw [hfound, Option.toList_some, List.flatMap_singleton] at hnode
  show AllBelow 280 ((c.resolver.bind fun resolve => resolve node.identifier (node.placement c.frame)).toList.flatMap
    ModelRef.numbers)
  rw [allBelow_flatMap]
  intro m hm
  obtain ⟨resolve, hresolve, hm⟩ := Option.bind_eq_some_iff.mp (Option.mem_toList.mp hm)
  exact hresolver resolve hresolve _ _ (below_placement hframe hnode) m hm

/-- **What a record of near numbers places** is drawn with near numbers. -/
theorem below_of_yields {kind : FootprintKind} (hframe : c.frame.IsNear)
    (hresolver : ∀ resolve ∈ c.resolver, Resolver.KeepsNear resolve) (hf : AllBelow 256 (numbersOfKind kind f))
    (h : (ofKind c kind f).Yields p) : AllBelow 560 p.numbers := by
  unfold numbersOfKind at hf
  rw [allBelow_append] at hf
  obtain ⟨hf, hkind⟩ := hf
  cases kind with
  | track => exact (below_of_yields_track hframe hf h).mono (by decide)
  | pad => exact below_of_yields_pad hframe hf hkind h
  | arc => exact (below_of_yields_arc hframe hf hkind h).mono (by decide)
  | circle => exact (below_of_yields_circle hframe hf h).mono (by decide)
  | rect => exact (below_of_yields_rect hframe hf h).mono (by decide)
  | svgNode => exact (below_of_yields_modelNode hframe hresolver hkind h).mono (by decide)
  | solidRegion => exact absurd h yields_throw
  | via => exact absurd h not_yields_via

theorem below_of_read {line : String} (hframe : c.frame.IsNear)
    (hresolver : ∀ resolve ∈ c.resolver, Resolver.KeepsNear resolve) (hline : AllBelow 256 (lineNumbers line))
    (h : read c line = .ok p) : AllBelow 560 p.numbers := by
  obtain ⟨kind, fields, hrecord, hyields⟩ := read_eq_ok_iff.mp h
  have hnumbers : lineNumbers line = numbersOfKind kind ⟨kind.tag, fields⟩ := by
    simp [lineNumbers, hrecord, FootprintKind.ofTag_eq_ok_iff.mpr rfl, Except.toOption]
  rw [hnumbers] at hline
  exact below_of_yields hframe hresolver hline hyields

end Placement

/-! ## Boards -/

def Box.numbers (b : Box) : List Float := [b.minX, b.maxX, b.minY, b.maxY]

namespace Box

variable {k c : Nat} {b : Box}

theorem below_widen {p : Point} (hb : AllBelow k b.numbers) (hp : AllBelow k p.numbers) :
    AllBelow k (b.widen p).numbers := by
  have hlesser {x y : Float} (hx : Below k x) (hy : Below k y) : Below k (lesser x y) := by
    unfold lesser
    split <;> assumption
  have hgreater {x y : Float} (hx : Below k x) (hy : Below k y) : Below k (greater x y) := by
    unfold greater
    split <;> assumption
  simp only [numbers, widen, Point.numbers, allBelow_cons, allBelow_nil, and_true] at hb hp ⊢
  obtain ⟨hminX, hmaxX, hminY, hmaxY⟩ := hb
  exact ⟨hlesser hminX hp.1, hgreater hmaxX hp.1, hlesser hminY hp.2, hgreater hmaxY hp.2⟩

theorem below_foldl_widen {ps : List Point} (hb : AllBelow k b.numbers) (hps : AllBelow k (ps.flatMap Point.numbers)) :
    AllBelow k (ps.foldl widen b).numbers := by
  induction ps generalizing b with
  | nil => exact hb
  | cons p ps ih =>
    rw [List.flatMap_cons, allBelow_append] at hps
    exact ih (below_widen hb hps.1) hps.2

theorem below_center (hb : AllBelow k b.numbers) (hk : k + 2 ≤ c) (hc : c ≤ 1024) :
    AllBelow c b.center.numbers := by
  have htwo : AtLeast 2 2 := by decide
  have hmiddle {x y : Float} (hx : Below k x) (hy : Below k y) : Below c ((x + y) / 2) :=
    (hx.add hy hk hc).div htwo (by omega) (by omega) hc
  simp only [numbers, allBelow_cons, allBelow_nil, and_true] at hb
  obtain ⟨hminX, hmaxX, hminY, hmaxY⟩ := hb
  unfold center
  split
  · exact Point.below_iff.mpr ⟨below_zero c, below_zero c⟩
  · exact Point.below_iff.mpr ⟨hmiddle hminX hmaxX, hmiddle hminY hmaxY⟩

end Box

theorem Primitive.below_translate {v : Point} {q : Primitive} (hv : AllBelow 562 v.numbers)
    (hq : AllBelow 560 q.numbers) : AllBelow 564 (q.translate v).numbers := by
  have hpoint {p : Point} (hp : AllBelow 560 p.numbers) : AllBelow 564 (p + v).numbers :=
    Point.below_add (hp.mono (by decide)) hv (by decide) (by decide)
  have hrest {xs : List Float} (hxs : AllBelow 560 xs) : AllBelow 564 xs := hxs.mono (by decide)
  cases q with
  | line start stop width layer =>
    simp only [numbers, translate, allBelow_append] at hq ⊢
    exact ⟨⟨hpoint hq.1.1, hpoint hq.1.2⟩, hrest hq.2⟩
  | arc center start mid stop angle width layer =>
    simp only [numbers, translate, allBelow_append] at hq ⊢
    obtain ⟨⟨⟨⟨hcenter, hstart⟩, hmid⟩, hstop⟩, hmeasures⟩ := hq
    exact ⟨⟨⟨⟨hpoint hcenter, hpoint hstart⟩, hpoint hmid⟩, hpoint hstop⟩, hrest hmeasures⟩
  | circle center radius width layer =>
    simp only [numbers, translate, allBelow_append] at hq ⊢
    exact ⟨hpoint hq.1, hrest hq.2⟩
  | rect start stop width layer =>
    simp only [numbers, translate, allBelow_append] at hq ⊢
    exact ⟨⟨hpoint hq.1.1, hpoint hq.1.2⟩, hrest hq.2⟩
  | pad p =>
    simp only [numbers, translate, Pad.numbers, allBelow_append] at hq ⊢
    obtain ⟨⟨⟨⟨hposition, hsize⟩, hrotation⟩, hdrill⟩, houtline⟩ := hq
    exact ⟨⟨⟨⟨hpoint hposition, hrest hsize⟩, hrest hrotation⟩, hrest hdrill⟩, hrest houtline⟩

namespace Board

/-- The numbers of a board, its box among them. -/
def numbers (b : Board) : List Float :=
  b.primitives.flatMap Primitive.numbers ++ b.box.numbers ++ b.model.toList.flatMap ModelRef.numbers

variable {c : FootprintContext} {b : Board}

theorem below_empty : AllBelow 560 empty.numbers := by
  decide

theorem below_place {p : Placement} (hb : AllBelow 560 b.numbers) (hp : AllBelow 560 p.numbers) :
    AllBelow 560 (b.place p).numbers := by
  simp only [numbers, Placement.numbers, allBelow_append] at hb hp
  obtain ⟨⟨hprimitives, hbox⟩, hmodel⟩ := hb
  obtain ⟨⟨hadded, hextents⟩, hfound⟩ := hp
  simp only [numbers, place, List.flatMap_append, allBelow_append]
  refine ⟨⟨⟨hprimitives, hadded⟩, Box.below_foldl_widen hbox hextents⟩, ?_⟩
  cases hmodel' : p.model with
  | none => exact hmodel
  | some m =>
    rw [hmodel'] at hfound
    exact hfound

/-- Near lines are drawn with near numbers, one after the other. -/
theorem below_ofLines {lines : List String} (hframe : c.frame.IsNear)
    (hresolver : ∀ resolve ∈ c.resolver, Resolver.KeepsNear resolve)
    (hlines : AllBelow 256 (lines.flatMap Placement.lineNumbers)) : AllBelow 560 (ofLines c lines).value.numbers := by
  rw [value_ofLines]
  have hfold (b : Board) (hb : AllBelow 560 b.numbers) :
      AllBelow 560 ((lines.map (Placement.read c)).foldl placeRead b).numbers := by
    induction lines generalizing b with
    | nil => exact hb
    | cons line lines ih =>
      rw [List.flatMap_cons, allBelow_append] at hlines
      apply ih hlines.2
      cases hread : Placement.read c line with
      | error skip => exact hb
      | ok p => exact below_place hb (Placement.below_of_read hframe hresolver hlines.1 hread)
  exact hfold empty below_empty

theorem below_texts (hb : AllBelow 560 b.box.numbers) (name : String) :
    ∀ t ∈ b.texts name, AllBelow 562 t.position.numbers := by
  have hcenter := Point.below_iff.mp (Box.below_center hb (c := 562) (by decide) (by decide))
  simp only [Box.numbers, allBelow_cons, allBelow_nil, and_true] at hb
  obtain ⟨-, -, hminY, hmaxY⟩ := hb
  have hedge {y : Float} (hy : Below 560 y) : Below 560 (if b.box.isEmpty then 0 else y) := by
    split
    · exact below_zero 560
    · exact hy
  have hgaps : Below 560 referenceGap ∧ Below 560 userGap ∧ Below 560 valueGap := by decide
  simp only [texts, List.forall_mem_cons]
  refine ⟨?_, ?_, ?_, List.forall_mem_nil _⟩
  · exact Point.below_iff.mpr ⟨hcenter.1, (hedge hminY).sub hgaps.1 (by decide) (by decide)⟩
  · exact Point.below_iff.mpr ⟨hcenter.1, (hedge hmaxY).add hgaps.2.1 (by decide) (by decide)⟩
  · exact Point.below_iff.mpr ⟨hcenter.1, (hedge hmaxY).add hgaps.2.2 (by decide) (by decide)⟩

theorem below_moveModel {center : Point} {m : ModelRef} (hcenter : AllBelow 562 center.numbers)
    (hm : AllBelow 560 m.numbers) : AllBelow 580 (moveModel center m).numbers := by
  obtain ⟨hx, hy⟩ := Point.below_iff.mp hcenter
  simp only [ModelRef.numbers, Triple.numbers, allBelow_append, allBelow_cons, allBelow_nil, and_true] at hm
  obtain ⟨⟨hoffsetX, hoffsetY, hoffsetZ⟩, hrotation⟩ := hm
  have hmovedX := (hoffsetX.mono (by decide)).sub hx (c := 564) (by decide) (by decide)
  have hmovedY := (hoffsetY.mono (by decide)).add hy (c := 564) (by decide) (by decide)
  simp only [ModelRef.numbers, moveModel, Triple.numbers, allBelow_append, allBelow_cons, allBelow_nil, and_true]
  refine ⟨⟨?_, ?_, hoffsetZ.mono (by decide)⟩, ?_⟩
  · exact hmovedX.roundTo isFactor_boardPlaces (by decide) (by decide) (by decide)
  · exact hmovedY.roundTo isFactor_boardPlaces (by decide) (by decide) (by decide)
  · exact ⟨hrotation.1.mono (by decide), hrotation.2.1.mono (by decide), hrotation.2.2.mono (by decide)⟩

theorem below_finish (hb : AllBelow 560 b.numbers) (name : String) : AllBelow 600 (b.finish name).numbers := by
  simp only [numbers, allBelow_append] at hb
  obtain ⟨⟨hprimitives, hbox⟩, hmodel⟩ := hb
  have hcenter := Box.below_center hbox (c := 562) (by decide) (by decide)
  have hshift : AllBelow 562 (⟨-b.box.center.x, -b.box.center.y⟩ : Point).numbers := by
    rw [Point.below_iff] at hcenter ⊢
    exact ⟨hcenter.1.neg (by decide), hcenter.2.neg (by decide)⟩
  simp only [Footprint.numbers, finish, allBelow_append, allBelow_flatMap, List.forall_mem_map] at hprimitives hmodel ⊢
  refine ⟨⟨?_, ?_⟩, ?_⟩
  · intro t ht
    exact Point.below_sub (below_texts hbox name t ht) hcenter (by decide) (by decide)
  · intro q hq
    exact (Primitive.below_translate hshift (hprimitives q hq)).mono (by decide)
  · intro m hm
    obtain ⟨n, hn, rfl⟩ := Option.map_eq_some_iff.mp (Option.mem_toList.mp hm)
    exact (below_moveModel hcenter (hmodel n (Option.mem_toList.mpr hn))).mono (by decide)

end Board

end EdaParts
