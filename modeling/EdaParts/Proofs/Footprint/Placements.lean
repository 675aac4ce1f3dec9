import EdaParts.Footprint.Drawing
import EdaParts.Proofs.Record.Reading
import Mathlib.Data.List.Basic

/-!
# What footprint records place

A line that is not skipped is a record of one kind, and what it places has the form of that kind. Only
tracks and pads widen the box, and only they place lines and pads.

* `Placement.read_eq_ok_iff` : which lines are not skipped; `Placement.value_of_record` : a line as a record of its
  kind;
* `Placement.yields_track` and the lemmas after it : what a record of each kind places;
* `Placement.accepted` : what lines place; `Board.primitives_ofLines`, `Board.box_ofLines` : the board is
  made of that;
* `Placement.widening` : the part of it that tracks and pads place; `Placement.flatMap_widening` : the box,
  the lines and the pads come from that part; `Placement.widening_congr` : what it depends on.
-/

namespace EdaParts

open Reading

theorem FootprintKind.ofTag_eq_ok_iff {tag : String} {kind : FootprintKind} :
    ofTag tag = .ok kind ↔ kind.tag = tag := by
  constructor
  · intro h
    unfold ofTag at h
    split at h
    · next found hfind =>
      obtain rfl := Except.ok.inj h
      simpa using List.find?_some hfind
    · cases h
  · rintro rfl
    cases kind <;> rfl

namespace Placement

variable {c c' : FootprintContext} {f : Fields} {p : Placement} {line : String}

theorem read_eq_ok_iff : read c line = .ok p ↔
    ∃ kind fields, Record.ofLine? line = some ⟨FootprintKind.tag kind, fields⟩ ∧
      (ofKind c kind ⟨kind.tag, fields⟩).Yields p := by
  show (ofLine c line).Yields p ↔ _
  unfold ofLine
  cases Record.ofLine? line with
  | none => simp
  | some r =>
    obtain ⟨tag, fields⟩ := r
    simp only [yields_bind, yields_liftM, FootprintKind.ofTag_eq_ok_iff, Option.some.injEq, Record.mk.injEq]
    constructor
    · rintro ⟨kind, rfl, hkind⟩
      exact ⟨kind, fields, ⟨rfl, rfl⟩, hkind⟩
    · rintro ⟨kind, _, ⟨rfl, rfl⟩, hkind⟩
      exact ⟨kind, rfl, hkind⟩

/-- A line is read as the record that it is. -/
theorem value_of_record (kind : FootprintKind) {fields : List String}
    (hline : Record.ofLine? line = some ⟨kind.tag, fields⟩) :
    read c line = (ofKind c kind ⟨kind.tag, fields⟩).run.value := by
  show (ofLine c line).run.value = _
  unfold ofLine
  rw [hline]
  dsimp only
  rw [FootprintKind.ofTag_eq_ok_iff.mpr rfl]
  rfl

/-! ## Kind by kind -/

/-- An unknown or missing layer skips no record. -/
theorem value_layerAt (f : Fields) (i : Nat) :
    (layerAt f i).run.value = .ok ((Layer.ofCode? ((f.get? i).getD "")).getD .fallback) := by
  unfold layerAt
  dsimp only
  cases Layer.ofCode? ((f.get? i).getD "") <;> rfl

/-- The position of the vertices among the fields of a track. -/
def trackField (f : Fields) : Nat :=
  if (f.get? 1).any isPointList then 1 else 2

theorem yields_track (h : (track c f).Yields p) :
    ∃ width layer vertices, f.number 0 = .ok width ∧ f.points (trackField f) = .ok vertices ∧
      p = ⟨segments (c.frame.length width) layer (vertices.map c.frame.point), vertices.map c.frame.point,
        none⟩ := by
  unfold track at h
  obtain ⟨width, hwidth, h⟩ := yields_bind.mp h
  refine ⟨width, ?_⟩
  by_cases hshort : (f.get? 1).any isPointList = true
  · simp only [hshort, if_true, yields_bind, yields_pure, yields_note, yields_liftM, true_and] at h
    obtain ⟨-, layer, rfl, vertices, hvertices, rfl⟩ := h
    rw [trackField, if_pos hshort]
    exact ⟨Layer.fallback, vertices, hwidth, hvertices, rfl⟩
  · simp only [hshort, Bool.false_eq_true, if_false, yields_bind, yields_pure, yields_liftM] at h
    obtain ⟨layer, -, vertices, hvertices, rfl⟩ := h
    rw [trackField, if_neg hshort]
    exact ⟨layer, vertices, hwidth, hvertices, rfl⟩

/-- The pad of a record, by the fields that it is read from. -/
structure IsPadOf (c : FootprintContext) (f : Fields) (drawn : Pad) : Prop where
  shape : ∃ code, f.text 0 = .ok code ∧ (padShape code).Yields drawn.shape
  position : ∃ x y, f.number 1 = .ok x ∧ f.number 2 = .ok y ∧ drawn.position = c.frame.point ⟨x, y⟩
  size : ∃ w h, f.number 3 = .ok w ∧ f.number 4 = .ok h ∧ drawn.size = ⟨c.frame.length w, c.frame.length h⟩
  hole : ∃ hole, f.number 7 = .ok hole ∧
    drawn.mounting = (if hole > 0 then .throughHole else .surface) ∧
    drawn.layers = (if hole > 0 then [.allCopper, .allMask]
      else if f.get? 5 = some "2" then [.backCopper, .backPaste, .backMask]
      else [.frontCopper, .frontPaste, .frontMask]) ∧
    if hole > 0 then ∃ d, padDrill c f hole = .ok d ∧ drawn.drill = some d else drawn.drill = none
  rotation : drawn.rotation = 0 ∨ f.number? 9 = .ok (some drawn.rotation)
  outline : if drawn.shape = .custom then padOutline c f drawn.position = .ok drawn.outline else drawn.outline = []

theorem yields_pad (h : (pad c f).Yields p) :
    ∃ drawn : Pad, IsPadOf c f drawn ∧
      p = ⟨[.pad drawn], padExtents drawn.position drawn.size drawn.rotation drawn.outline, none⟩ := by
  unfold pad at h
  obtain ⟨code, hcode, h⟩ := yields_bind.mp h
  obtain ⟨x, hx, h⟩ := yields_bind.mp h
  obtain ⟨y, hy, h⟩ := yields_bind.mp h
  obtain ⟨width, hwidth, h⟩ := yields_bind.mp h
  obtain ⟨height, hheight, h⟩ := yields_bind.mp h
  obtain ⟨number, -, h⟩ := yields_bind.mp h
  obtain ⟨hole, hhole, h⟩ := yields_bind.mp h
  obtain ⟨shape, hshape, h⟩ := yields_bind.mp h
  obtain ⟨drill, hdrill, h⟩ := yields_ite_bind.mp h
  have hdrill : if hole > 0 then ∃ d, padDrill c f hole = .ok d ∧ drill = some d else drill = none := by
    by_cases hpos : hole > 0
    · rw [if_pos hpos] at hdrill ⊢
      obtain ⟨d, hd, rfl⟩ := yields_map.mp hdrill
      exact ⟨d, hd, rfl⟩
    · rw [if_neg hpos] at hdrill ⊢
      exact (yields_pure.mp hdrill).symm
  have hturn : ∀ {turn : Reading Float} {rotation : Float}, turn.Yields rotation →
      turn = pure 0 ∨ turn = (·.getD 0) <$> liftM (f.number? 9) →
      rotation = 0 ∨ f.number? 9 = .ok (some rotation) := by
    rintro turn rotation hrotation (rfl | rfl)
    · exact .inl (yields_pure.mp hrotation).symm
    · obtain ⟨_ | rotation, hfield, rfl⟩ := yields_map.mp hrotation
      · exact .inl rfl
      · exact .inr hfield
  -- The shape decides which of rotation and outline are read; the rest is put together in one way.
  cases shape
  all_goals
    obtain ⟨rotation, hrotation, h⟩ := yields_bind.mp h
    obtain ⟨outline, houtline, h⟩ := yields_bind.mp h
    obtain rfl := yields_pure.mp h
    refine ⟨_, ⟨⟨code, hcode, hshape⟩, ⟨x, y, hx, hy, rfl⟩, ⟨width, height, hwidth, hheight, rfl⟩,
      ⟨hole, hhole, rfl, rfl, hdrill⟩, hturn hrotation (by simp), ?_⟩, rfl⟩
    first
      | exact (yields_pure.mp houtline).symm
      | exact houtline

/-- What an arc places, drawn from its end to its start. -/
def ofArc (c : FootprintContext) (width : Float) (layer : Layer) (a : Arc) : Placement :=
  single (.arc (c.frame.point a.center) (c.frame.point a.stop) (c.frame.point a.mid) (c.frame.point a.start)
    (roundTo boardPlaces (-Binary64.degrees a.sweepAngle)) (c.frame.length width) layer)

theorem yields_arc_iff : (arc c f).Yields p ↔
    ∃ width path e a rest, f.number 0 = .ok width ∧ arcPath f = .ok path ∧
      Element.ofPath path = .ok (e :: .arc a :: rest) ∧
      p = ofArc c width ((Layer.ofCode? ((f.get? 1).getD "")).getD .fallback) a := by
  unfold arc
  simp only [yields_bind, yields_liftM, mapError_eq_ok_iff]
  constructor
  · rintro ⟨width, hwidth, path, hpath, elements, helements, h⟩
    split at h
    · next a rest hdrop =>
      obtain ⟨layer, hlayer, h⟩ := yields_bind.mp h
      obtain rfl := Except.ok.inj ((value_layerAt f 1).symm.trans hlayer)
      cases elements with
      | nil => cases hdrop
      | cons e elements =>
        obtain rfl : elements = .arc a :: rest := hdrop
        exact ⟨width, path, e, a, rest, hwidth, hpath, helements, (yields_pure.mp h).symm⟩
    · exact absurd h yields_throw
  · rintro ⟨width, path, e, a, rest, hwidth, hpath, helements, rfl⟩
    exact ⟨width, hwidth, path, hpath, _, helements, yields_bind.mpr ⟨_, value_layerAt f 1, rfl⟩⟩

theorem yields_arc (h : (arc c f).Yields p) :
    ∃ width path e a rest layer, f.number 0 = .ok width ∧ arcPath f = .ok path ∧
      Element.ofPath path = .ok (e :: .arc a :: rest) ∧
      p = single (.arc (c.frame.point a.center) (c.frame.point a.stop) (c.frame.point a.mid)
        (c.frame.point a.start) (roundTo boardPlaces (-Binary64.degrees a.sweepAngle)) (c.frame.length width)
        layer) := by
  obtain ⟨width, path, e, a, rest, hwidth, hpath, helements, rfl⟩ := yields_arc_iff.mp h
  exact ⟨width, path, e, a, rest, _, hwidth, hpath, helements, rfl⟩

theorem yields_circle (h : (circle c f).Yields p) :
    ∃ x y radius width layer, f.number 0 = .ok x ∧ f.number 1 = .ok y ∧ f.number 2 = .ok radius ∧
      f.number 3 = .ok width ∧
      p = single (.circle (c.frame.point ⟨x, y⟩) (c.frame.length radius) (c.frame.length width) layer) := by
  unfold circle at h
  split at h
  · obtain ⟨-, h, -⟩ := yields_bind.mp h
    exact absurd h yields_throw
  · obtain ⟨x, hx, h⟩ := yields_bind.mp h
    obtain ⟨y, hy, h⟩ := yields_bind.mp h
    obtain ⟨radius, hradius, h⟩ := yields_bind.mp h
    obtain ⟨width, hwidth, h⟩ := yields_bind.mp h
    obtain ⟨layer, -, h⟩ := yields_bind.mp h
    exact ⟨x, y, radius, width, layer, hx, hy, hradius, hwidth, (yields_pure.mp h).symm⟩

theorem yields_rect (h : (rect c f).Yields p) :
    ∃ x y width height layer, f.number 0 = .ok x ∧ f.number 1 = .ok y ∧ f.number 2 = .ok width ∧
      f.number 3 = .ok height ∧
      p = single (.rect (c.frame.point ⟨x, y⟩) (snap ((c.frame.point ⟨x, y⟩).x + c.frame.length width)
        ((c.frame.point ⟨x, y⟩).y + c.frame.length height)) rectWidth layer) := by
  unfold rect at h
  obtain ⟨x, hx, h⟩ := yields_bind.mp h
  obtain ⟨y, hy, h⟩ := yields_bind.mp h
  obtain ⟨width, hwidth, h⟩ := yields_bind.mp h
  obtain ⟨height, hheight, h⟩ := yields_bind.mp h
  obtain ⟨layer, -, h⟩ := yields_bind.mp h
  exact ⟨x, y, width, height, layer, hx, hy, hwidth, hheight, (yields_pure.mp h).symm⟩

theorem yields_modelNode (h : (modelNode c f).Yields p) :
    ∃ text node, f.text 0 = .ok text ∧ ModelNode.read text = .ok node ∧
      p = ⟨[], [], c.resolver.bind fun resolve => resolve node.identifier (node.placement c.frame)⟩ := by
  unfold modelNode at h
  obtain ⟨text, htext, h⟩ := yields_bind.mp h
  split at h
  · exact absurd h yields_throw
  · next node hnode =>
    refine ⟨text, node, htext, hnode, ?_⟩
    dsimp only at h
    split at h
    · next found =>
      obtain ⟨-, -, h⟩ := yields_bind.mp h
      exact (yields_pure.mp h).symm
    · exact (yields_pure.mp h).symm

theorem not_yields_via : ¬ (ofKind c .via f).Yields p := by
  intro h
  obtain ⟨-, -, h⟩ := yields_bind.mp h
  obtain ⟨-, -, h⟩ := yields_bind.mp h
  exact yields_throw h

end Placement

/-! ## Tracks and pads -/

/-- Records of the kind widen the box. -/
def FootprintKind.widens : FootprintKind → Bool
  | .track | .pad => true
  | .arc | .circle | .rect | .solidRegion | .svgNode | .via => false

/-- What tracks and pads are drawn with. -/
def Primitive.isLineOrPad : Primitive → Bool
  | .line .. | .pad _ => true
  | .arc .. | .circle .. | .rect .. => false

namespace Placement

variable {c c' : FootprintContext} {f : Fields} {p : Placement} {line : String} {kind : FootprintKind}

theorem isLineOrPad_segments (width : Float) (layer : Layer) (nodes : List Point) :
    ∀ q ∈ segments width layer nodes, q.isLineOrPad = true := by
  induction nodes with
  | nil => simp [segments]
  | cons p nodes ih =>
    cases nodes with
    | nil => simp [segments]
    | cons q nodes =>
      rw [segments, List.forall_mem_cons]
      exact ⟨rfl, ih⟩

/-- A track or a pad is drawn with nothing but lines and pads. -/
theorem isLineOrPad_of_widens (hkind : kind.widens = true) (h : (ofKind c kind f).Yields p) :
    ∀ q ∈ p.primitives, q.isLineOrPad = true := by
  cases kind with
  | track =>
    obtain ⟨width, layer, vertices, -, -, rfl⟩ := yields_track h
    exact isLineOrPad_segments _ layer _
  | pad =>
    obtain ⟨drawn, -, rfl⟩ := yields_pad h
    simp [Primitive.isLineOrPad]
  | _ => cases hkind

/-- Records of the other kinds do not widen the box, and draw neither lines nor pads. -/
theorem aside_of_not_widens (hkind : kind.widens = false) (h : (ofKind c kind f).Yields p) :
    p.extents = [] ∧ ∀ q ∈ p.primitives, q.isLineOrPad = false := by
  cases kind with
  | track => cases hkind
  | pad => cases hkind
  | arc =>
    obtain ⟨width, path, e, a, rest, layer, -, -, -, rfl⟩ := yields_arc h
    simp [single, Primitive.isLineOrPad]
  | circle =>
    obtain ⟨x, y, radius, width, layer, -, -, -, -, rfl⟩ := yields_circle h
    simp [single, Primitive.isLineOrPad]
  | rect =>
    obtain ⟨x, y, width, height, layer, -, -, -, -, rfl⟩ := yields_rect h
    simp [single, Primitive.isLineOrPad]
  | svgNode =>
    obtain ⟨text, node, -, -, rfl⟩ := yields_modelNode h
    simp
  | solidRegion => exact absurd h yields_throw
  | via => exact absurd h not_yields_via

/-- Tracks and pads do not ask for models. -/
theorem ofKind_congr (hkind : kind.widens = true) (hframe : c.frame = c'.frame) :
    ofKind c kind f = ofKind c' kind f := by
  cases kind with
  | track => simp only [ofKind, track, hframe]
  | pad => simp only [ofKind, pad, padDrill, padOutline, hframe]
  | _ => cases hkind

end Placement

/-! ## What lines place -/

namespace Placement

variable {c c' : FootprintContext} {p : Placement} {line : String} {lines lines' : List String}

/-- What the lines place that are not skipped, in order. -/
def accepted (c : FootprintContext) (lines : List String) : List Placement :=
  lines.filterMap fun line => (read c line).toOption

/-- The record of a line, if it is a track or a pad that is not skipped. -/
def wideningRecord? (c : FootprintContext) (line : String) : Option Record :=
  (Record.ofLine? line).filter fun r =>
    (r.tag = FootprintKind.track.tag || r.tag = FootprintKind.pad.tag) && (read c line).isOk

/-- What the tracks and the pads among the lines place. -/
def widening (c : FootprintContext) (lines : List String) : List Placement :=
  lines.filterMap fun line => (wideningRecord? c line).bind fun _ => (read c line).toOption

/-- What a line places is placed by a track or a pad, or keeps aside. -/
theorem widening_or_aside (h : read c line = .ok p) :
    (wideningRecord? c line).isSome = true ∧ (∀ q ∈ p.primitives, q.isLineOrPad = true) ∨
    wideningRecord? c line = none ∧ p.extents = [] ∧ ∀ q ∈ p.primitives, q.isLineOrPad = false := by
  obtain ⟨kind, fields, hrecord, hkind⟩ := read_eq_ok_iff.mp h
  cases hwidens : kind.widens with
  | true =>
    refine Or.inl ⟨?_, isLineOrPad_of_widens hwidens hkind⟩
    rw [wideningRecord?, hrecord, h]
    cases kind with
    | track | pad => rfl
    | _ => cases hwidens
  | false =>
    refine Or.inr ⟨?_, aside_of_not_widens hwidens hkind⟩
    rw [wideningRecord?, hrecord, h]
    cases kind with
    | track | pad => cases hwidens
    | _ => rfl

theorem accepted_cons (c : FootprintContext) (line : String) (lines : List String) :
    accepted c (line :: lines) = (read c line).toOption.toList ++ accepted c lines := by
  rw [accepted, List.filterMap_cons]
  cases read c line <;> rfl

theorem accepted_append (c : FootprintContext) (lines lines' : List String) :
    accepted c (lines ++ lines') = accepted c lines ++ accepted c lines' :=
  List.filterMap_append

theorem widening_cons (c : FootprintContext) (line : String) (lines : List String) :
    widening c (line :: lines) =
      ((wideningRecord? c line).bind fun _ => (read c line).toOption).toList ++ widening c lines := by
  rw [widening, List.filterMap_cons]
  cases (wideningRecord? c line).bind fun _ => (read c line).toOption <;> rfl

/-- What tracks and pads place among the lines, by its two traces: where the box is widened, and what is
drawn with lines and pads. -/
theorem flatMap_widening (c : FootprintContext) (lines : List String) :
    (accepted c lines).flatMap (·.extents) = (widening c lines).flatMap (·.extents) ∧
      ((accepted c lines).flatMap (·.primitives)).filter Primitive.isLineOrPad =
        (widening c lines).flatMap (·.primitives) := by
  induction lines with
  | nil => exact ⟨rfl, rfl⟩
  | cons line lines ih =>
    rw [accepted_cons, widening_cons]
    simp only [List.flatMap_append, List.filter_append, ih]
    -- The line is skipped, or a track or a pad with all it places, or keeps aside with all of it.
    cases hread : read c line with
    | error skip => cases wideningRecord? c line <;> exact ⟨rfl, rfl⟩
    | ok p =>
      rcases widening_or_aside hread with ⟨hrecord, hdrawn⟩ | ⟨hrecord, hextents, hdrawn⟩
      · obtain ⟨r, hrecord⟩ := Option.isSome_iff_exists.mp hrecord
        rw [hrecord]
        have hall := List.filter_eq_self.mpr hdrawn
        simp [Except.toOption, hall]
      · rw [hrecord]
        have hnone := List.filter_eq_nil_iff.mpr fun q hq => Bool.eq_false_iff.mp (hdrawn q hq)
        simp [Except.toOption, hextents, hnone]

/-- The placement of a record. -/
def ofRecord (c : FootprintContext) (r : Record) : Reading Placement := do
  let kind ← FootprintKind.ofTag r.tag
  ofKind c kind ⟨kind.tag, r.fields⟩

theorem widening_eq_filterMap (c : FootprintContext) (lines : List String) :
    widening c lines =
      (lines.filterMap (wideningRecord? c)).filterMap fun r => (ofRecord c r).run.value.toOption := by
  rw [widening, List.filterMap_filterMap]
  refine List.filterMap_congr fun line _ => ?_
  cases hrecord : wideningRecord? c line with
  | none => rfl
  | some r =>
    have hline := (Option.filter_eq_some_iff.mp hrecord).1
    show (ofLine c line).run.value.toOption = _
    rw [ofLine, hline]
    rfl

theorem ofRecord_congr {r : Record} (hframe : c.frame = c'.frame)
    (h : r ∈ lines.filterMap (wideningRecord? c)) : ofRecord c r = ofRecord c' r := by
  obtain ⟨line, -, hrecord⟩ := List.mem_filterMap.mp h
  have htag := (Option.filter_eq_some_iff.mp hrecord).2
  obtain ⟨tag, fields⟩ := r
  simp only [Bool.and_eq_true, Bool.or_eq_true, decide_eq_true_iff] at htag
  have hkind : ∃ kind, FootprintKind.ofTag tag = .ok kind ∧ kind.widens = true := by
    rcases htag.1 with rfl | rfl
    · exact ⟨.track, rfl, rfl⟩
    · exact ⟨.pad, rfl, rfl⟩
  obtain ⟨kind, hkind, hwidens⟩ := hkind
  simp only [ofRecord, hkind]
  exact ofKind_congr hwidens hframe

/-- **What tracks and pads place depends on their records and the frame alone.** -/
theorem widening_congr (hframe : c.frame = c'.frame)
    (h : lines.filterMap (wideningRecord? c) = lines'.filterMap (wideningRecord? c')) :
    widening c lines = widening c' lines' := by
  rw [widening_eq_filterMap, widening_eq_filterMap, ← h]
  refine List.filterMap_congr fun r hr => ?_
  rw [ofRecord_congr hframe hr]

end Placement

namespace Board

variable (c : FootprintContext) (lines : List String)

theorem foldl_place (b : Board) (ps : List Placement) :
    (ps.foldl place b).primitives = b.primitives ++ ps.flatMap (·.primitives) ∧
      (ps.foldl place b).box = (ps.flatMap (·.extents)).foldl Box.widen b.box := by
  induction ps generalizing b with
  | nil => simp
  | cons p ps ih =>
    rw [List.foldl_cons, List.flatMap_cons, List.flatMap_cons, List.foldl_append, ← List.append_assoc]
    exact ih (b.place p)

theorem value_ofLines_accepted :
    (ofLines c lines).value = (Placement.accepted c lines).foldl place empty := by
  rw [value_ofLines]
  generalize empty = b
  induction lines generalizing b with
  | nil => rfl
  | cons line lines ih =>
    rw [List.map_cons, List.foldl_cons, ih, Placement.accepted_cons]
    cases Placement.read c line <;> rfl

theorem primitives_ofLines :
    (ofLines c lines).value.primitives = (Placement.accepted c lines).flatMap (·.primitives) := by
  rw [value_ofLines_accepted, (foldl_place _ _).1]
  rfl

theorem box_ofLines :
    (ofLines c lines).value.box =
      ((Placement.accepted c lines).flatMap (·.extents)).foldl Box.widen .empty := by
  rw [value_ofLines_accepted, (foldl_place _ _).2]
  rfl

end Board

end EdaParts
