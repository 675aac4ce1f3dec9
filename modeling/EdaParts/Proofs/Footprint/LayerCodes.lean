import EdaParts.Proofs.Footprint.Placements
import EdaParts.Proofs.Text.Pieces

/-!
# Blanks around layer codes

The codes of layers are looked up without the blanks around them, in all kinds of records. Two codes are also compared
as they stand: that of the back, on which a pad lies, and that of the outlines of pads, on which no circle is drawn.
With a blank beside it neither is known any more.

* `Fields.AgreeExcept` : fields that differ in one place;
* `Placement.value_pad_sided` : what a pad owes to the code of its layer;
* `Placement.padded_layer_iff` : when a record is read alike with blanks around its layer.
-/

namespace EdaParts

theorem Layer.ofCode?_padded {s t : String} (h : Text.Padded s t) : ofCode? t = ofCode? s := by
  unfold ofCode? Text.trimmed
  rw [h.trim_eq]

/-- The position of the layer among the fields of a record. -/
def FootprintKind.layerField? : FootprintKind → Option Nat
  | .track | .arc => some 1
  | .pad => some 5
  | .circle | .rect => some 4
  | .solidRegion | .svgNode | .via => none

/-! ## Fields with blanks -/

namespace Fields

variable {f f' : Fields} {i j : Nat}

/-- Fields of one kind that differ in one place at most. -/
structure AgreeExcept (f f' : Fields) (i : Nat) : Prop where
  kind : f'.kind = f.kind
  get? : ∀ j ≠ i, f'.get? j = f.get? j

theorem agreeExcept_refl (f : Fields) (i : Nat) : f.AgreeExcept f i := ⟨rfl, fun _ _ => rfl⟩

namespace AgreeExcept

theorem text (h : AgreeExcept f f' i) (hj : j ≠ i) : f'.text j = f.text j := by
  rw [Fields.text, Fields.text, h.get? j hj, h.kind]

theorem numberIn (h : AgreeExcept f f' i) (j : Nat) : f'.numberIn j = f.numberIn j := by
  funext cs
  rw [Fields.numberIn, Fields.numberIn, h.kind]

theorem number (h : AgreeExcept f f' i) (hj : j ≠ i) : f'.number j = f.number j := by
  rw [Fields.number, Fields.number, h.text hj, h.numberIn]

theorem number? (h : AgreeExcept f f' i) (hj : j ≠ i) : f'.number? j = f.number? j := by
  rw [Fields.number?, Fields.number?, h.get? j hj, h.numberIn]

theorem points (h : AgreeExcept f f' i) (hj : j ≠ i) : f'.points j = f.points j := by
  rw [Fields.points, Fields.points, h.text hj, h.numberIn]

end AgreeExcept

/-- Fields that differ in the blanks around one of them. -/
structure PaddedAt (f f' : Fields) (i : Nat) : Prop extends AgreeExcept f f' i where
  padded : ∃ s s', f.get? i = some s ∧ f'.get? i = some s' ∧ Text.Padded s s'

theorem paddedAt_set (kind : String) {values : List String} {s s' : String} (hs : values[i]? = some s)
    (hpadded : Text.Padded s s') :
    PaddedAt ⟨kind, values⟩ ⟨kind, values.set i s'⟩ i ∧ get? ⟨kind, values.set i s'⟩ i = some s' := by
  obtain ⟨hi, -⟩ := List.getElem?_eq_some_iff.mp hs
  have hs' : (values.set i s')[i]? = some s' := List.getElem?_set_self hi
  exact ⟨⟨⟨rfl, fun j hj => List.getElem?_set_ne hj.symm⟩, s, s', hs, hs', hpadded⟩, hs'⟩

/-- Coordinates are told by their words. -/
theorem PaddedAt.points_eq (h : PaddedAt f f' i) : f'.points i = f.points i := by
  obtain ⟨s, s', hs, hs', hpadded⟩ := h.padded
  have htext : f.text i = .ok s := text_eq_ok_iff.mpr hs
  have htext' : f'.text i = .ok s' := text_eq_ok_iff.mpr hs'
  rw [points, points, htext, htext', h.numberIn]
  show (do return pairUp (← (Text.words s'.toList).mapM (f.numberIn i)) : Except Skip (List Point)) = _
  rw [hpadded.words_eq]
  rfl

theorem number_ne_suppressed (f : Fields) (i : Nat) (detail : String) : f.number i ≠ .error (.suppressed detail) := by
  unfold number text numberIn
  cases f.get? i with
  | none => exact nofun
  | some s =>
    simp only [bind, Except.bind]
    cases finiteNumber? s.toList <;> exact nofun

end Fields

/-! ## Sides -/

/-- The pad on a side, if it has one. -/
def Pad.sided (back : Bool) (p : Pad) : Pad :=
  match p.mounting with
  | .throughHole => p
  | .surface =>
    { p with layers :=
        if back then [.backCopper, .backPaste, .backMask] else [.frontCopper, .frontPaste, .frontMask] }

def Primitive.sided (back : Bool) : Primitive → Primitive
  | .pad p => .pad (p.sided back)
  | q => q

/-- A pad that can be on the back can be on the front just if it has no side. -/
theorem Pad.sided_front_eq_iff {p : Pad} (hback : p.sided true = p) : p.sided false = p ↔ p.mounting ≠ .surface := by
  cases hmounting : p.mounting with
  | throughHole => simp [sided, hmounting]
  | surface =>
    have hlayers : p.layers = [.backCopper, .backPaste, .backMask] := by
      rw [← hback]
      simp [sided, hmounting]
    refine iff_of_false (fun hfront => ?_) (absurd rfl)
    have hother : p.layers = [.frontCopper, .frontPaste, .frontMask] := by
      rw [← hfront]
      simp [sided, hmounting]
    cases hlayers.symm.trans hother

namespace Placement

open Reading

def sided (back : Bool) (p : Placement) : Placement :=
  { p with primitives := p.primitives.map (Primitive.sided back) }

/-- A pad of the placement lies on a side of the board. -/
def HasSide (p : Placement) : Prop := ∃ drawn, .pad drawn ∈ p.primitives ∧ drawn.mounting = .surface

theorem sided_eq_iff {back : Bool} {p : Placement} :
    sided back p = p ↔ ∀ drawn, .pad drawn ∈ p.primitives → drawn.sided back = drawn := by
  have hprimitives : sided back p = p ↔ p.primitives.map (Primitive.sided back) = p.primitives.map id := by
    rw [List.map_id]
    exact ⟨congrArg primitives, fun h => by rw [sided, h]⟩
  rw [hprimitives, List.map_inj_left]
  constructor
  · exact fun h drawn hdrawn => Primitive.pad.inj (h _ hdrawn)
  · intro h q hq
    cases q with
    | pad drawn => exact congrArg Primitive.pad (h drawn hq)
    | _ => rfl

theorem sided_front_eq_iff {p : Placement} (hback : sided true p = p) : sided false p = p ↔ ¬ p.HasSide := by
  rw [sided_eq_iff] at hback ⊢
  simp only [HasSide, not_exists, not_and]
  exact forall₂_congr fun drawn hdrawn => Pad.sided_front_eq_iff (hback drawn hdrawn)

/-! ## Kind by kind -/

variable {c : FootprintContext} {f f' : Fields} {i : Nat}

theorem value_layerAt_padded (h : f.PaddedAt f' i) : (layerAt f' i).run.value = (layerAt f i).run.value := by
  obtain ⟨s, s', hs, hs', hpadded⟩ := h.padded
  rw [value_layerAt, value_layerAt, hs, hs', Option.getD_some, Option.getD_some, Layer.ofCode?_padded hpadded]

theorem isPointList_padded (h : f.PaddedAt f' i) : (f'.get? i).any isPointList = (f.get? i).any isPointList := by
  obtain ⟨s, s', hs, hs', hpadded⟩ := h.padded
  rw [hs, hs', Option.any_some, Option.any_some, isPointList, isPointList, hpadded.trim_eq]

theorem value_track_padded (h : f.PaddedAt f' 1) : (track c f').run.value = (track c f).run.value := by
  have hlist := isPointList_padded h
  have hlayer := value_layerAt_padded h
  unfold track
  rw [h.number (show 0 ≠ 1 by decide), hlist]
  by_cases hshort : (f.get? 1).any isPointList = true
  · -- The field holds the vertices, and there is no layer.
    simp only [hshort, if_true, h.points_eq]
  · simp only [hshort, Bool.false_eq_true, if_false, h.points (show 2 ≠ 1 by decide)]
    exact value_bind_congr rfl fun _ => value_bind_congr hlayer fun _ => rfl

theorem value_arc_padded (h : f.PaddedAt f' 1) : (arc c f').run.value = (arc c f).run.value := by
  have hlayer := value_layerAt_padded h
  have hpath : arcPath f' = arcPath f := by
    have hfields : [2, 3].filterMap f'.get? = [2, 3].filterMap f.get? :=
      List.filterMap_congr fun j hj => h.get? j (by rintro rfl; simp at hj)
    rw [arcPath, arcPath, hfields]
  unfold arc
  rw [h.number (show 0 ≠ 1 by decide), hpath]
  refine value_bind_congr rfl fun width => value_bind_congr rfl fun path => value_bind_congr rfl fun elements => ?_
  cases elements.drop 1 with
  | nil => rfl
  | cons e rest =>
    cases e with
    | arc a => exact value_bind_congr hlayer fun _ => rfl
    | _ => rfl

theorem value_rect_padded (h : f.PaddedAt f' 4) : (rect c f').run.value = (rect c f).run.value := by
  have hlayer := value_layerAt_padded h
  unfold rect
  rw [h.number (show 0 ≠ 4 by decide), h.number (show 1 ≠ 4 by decide), h.number (show 2 ≠ 4 by decide),
    h.number (show 3 ≠ 4 by decide)]
  refine value_bind_congr rfl fun x => value_bind_congr rfl fun y => value_bind_congr rfl fun width =>
    value_bind_congr rfl fun height => value_bind_congr hlayer fun layer => rfl

/-- Circles around pads are not drawn. -/
theorem value_circle_of_outline (h : f.get? 4 = some padOutlineCode) :
    (circle c f).run.value = .error (.suppressed "CIRCLE on the pad meta-layer") := by
  unfold circle
  rw [if_pos h]
  rfl

/-- All other circles are drawn alike, whatever blanks there are around their layers. -/
theorem value_circle_padded (h : f.PaddedAt f' 4) (hcode : f.get? 4 ≠ some padOutlineCode)
    (hcode' : f'.get? 4 ≠ some padOutlineCode) : (circle c f').run.value = (circle c f).run.value := by
  have hlayer := value_layerAt_padded h
  unfold circle
  rw [if_neg hcode, if_neg hcode', h.number (show 0 ≠ 4 by decide), h.number (show 1 ≠ 4 by decide),
    h.number (show 2 ≠ 4 by decide), h.number (show 3 ≠ 4 by decide)]
  refine value_bind_congr rfl fun x => value_bind_congr rfl fun y => value_bind_congr rfl fun radius =>
    value_bind_congr rfl fun width => value_bind_congr hlayer fun layer => rfl

/-- No other circle is skipped as one around a pad. -/
theorem value_circle_ne_suppressed (hcode : f.get? 4 ≠ some padOutlineCode) (detail : String) :
    (circle c f).run.value ≠ .error (.suppressed detail) := by
  have hnumber (j : Nat) := f.number_ne_suppressed j detail
  unfold circle
  rw [if_neg hcode]
  refine value_bind_ne_error (hnumber 0) fun x => value_bind_ne_error (hnumber 1) fun y =>
    value_bind_ne_error (hnumber 2) fun radius => value_bind_ne_error (hnumber 3) fun width =>
    value_bind_ne_error ?_ fun layer => nofun
  rw [value_layerAt]
  exact nofun

/-- A pad is read up to its side alike, and its side by the code as it stands. -/
theorem value_pad_sided (h : f.AgreeExcept f' 5) :
    (pad c f').run.value = (pad c f).run.value.map (sided (decide (f'.get? 5 = some "2"))) := by
  have hdrill (hole : Float) : padDrill c f' hole = padDrill c f hole := by
    rw [padDrill, padDrill, h.number? (by decide)]
  have houtline (position : Point) : padOutline c f' position = padOutline c f position := by
    rw [padOutline, padOutline, h.points (by decide)]
  unfold pad
  rw [h.text (show 0 ≠ 5 by decide), h.number (show 1 ≠ 5 by decide), h.number (show 2 ≠ 5 by decide),
    h.number (show 3 ≠ 5 by decide), h.number (show 4 ≠ 5 by decide), h.text (show 6 ≠ 5 by decide),
    h.number (show 7 ≠ 5 by decide), h.number? (show 9 ≠ 5 by decide)]
  simp only [hdrill, houtline]
  refine value_bind_map fun code => value_bind_map fun x => value_bind_map fun y => value_bind_map fun width =>
    value_bind_map fun height => value_bind_map fun number => value_bind_map fun hole =>
    value_bind_map fun shape => ?_
  -- The hole decides whether there are sides, and the shape which other fields are read.
  by_cases hpos : hole > 0
  all_goals
    simp only [hpos, if_true, if_false]
    refine value_bind_map fun drill => ?_
    cases shape
  all_goals
    refine value_bind_map fun rotation => value_bind_map fun outline => congrArg Except.ok ?_
    simp [sided, Primitive.sided, Pad.sided]

/-- What is read with a pad on the back is read with it on the front just if the pad has no side. -/
theorem map_sided_front_eq_iff (hback : f.get? 5 = some "2") :
    (pad c f).run.value.map (sided false) = (pad c f).run.value ↔
      ¬ ∃ p, (pad c f).run.value = .ok p ∧ p.HasSide := by
  have hsame : (pad c f).run.value = _ := value_pad_sided (f.agreeExcept_refl 5)
  rw [decide_eq_true hback] at hsame
  cases hvalue : (pad c f).run.value with
  | error e => exact iff_of_true rfl nofun
  | ok p =>
    rw [hvalue] at hsame
    have hfront : Except.map (sided false) (.ok p : Except Skip Placement) = .ok p ↔ sided false p = p :=
      ⟨Except.ok.inj, congrArg Except.ok⟩
    rw [hfront, sided_front_eq_iff (Except.ok.inj hsame).symm]
    simp

/-- Blanks around the code of a circle let it be drawn. -/
theorem value_circle_eq_iff (h : f.PaddedAt f' 4) (hcode' : f'.get? 4 ≠ some padOutlineCode) :
    (circle c f').run.value = (circle c f).run.value ↔ f.get? 4 ≠ some padOutlineCode := by
  by_cases hcode : f.get? 4 = some padOutlineCode
  · refine iff_of_false (fun hsame => ?_) (absurd hcode)
    exact value_circle_ne_suppressed hcode' _ (hsame.trans (value_circle_of_outline hcode))
  · exact iff_of_true (value_circle_padded h hcode hcode') hcode

/-- Blanks around the code of a pad take it to the front. -/
theorem value_pad_eq_iff (h : f.PaddedAt f' 5) (hcode' : f'.get? 5 ≠ some "2") :
    (pad c f').run.value = (pad c f).run.value ↔
      ¬ (f.get? 5 = some "2" ∧ ∃ p, (pad c f).run.value = .ok p ∧ p.HasSide) := by
  have hfront : (pad c f').run.value = _ := value_pad_sided h.toAgreeExcept
  rw [decide_eq_false hcode'] at hfront
  by_cases hcode : f.get? 5 = some "2"
  · rw [hfront, map_sided_front_eq_iff hcode, and_iff_right hcode]
  · have hsame : (pad c f).run.value = _ := value_pad_sided (f.agreeExcept_refl 5)
    rw [decide_eq_false hcode] at hsame
    exact iff_of_true (hfront.trans hsame.symm) fun h => hcode h.1

/-- **Blanks around the code of a layer** do not matter, but for the code of the outlines of pads on a circle, and for
that of the back on a pad that has a side. -/
theorem padded_layer_iff (c : FootprintContext) {kind : FootprintKind} {i : Nat} {line line' : String}
    {fields : List String} {code code' : String} (hkind : kind.layerField? = some i)
    (hline : Record.ofLine? line = some ⟨kind.tag, fields⟩) (hcode : fields[i]? = some code)
    (hpadded : Text.Padded code code')
    (hline' : Record.ofLine? line' = some ⟨kind.tag, fields.set i code'⟩) :
    read c line' = read c line ↔
      code' = code ∨ ¬ (kind = .circle ∧ code = padOutlineCode) ∧
        ¬ (kind = .pad ∧ code = "2" ∧ ∃ p, read c line = .ok p ∧ p.HasSide) := by
  obtain ⟨hagree, hcode'⟩ := Fields.paddedAt_set kind.tag hcode hpadded
  rw [value_of_record kind hline, value_of_record kind hline']
  by_cases hsame : code' = code
  · refine iff_of_true ?_ (.inl hsame)
    obtain ⟨hi, hget⟩ := List.getElem?_eq_some_iff.mp hcode
    rw [hsame, ← hget, List.set_getElem_self]
  rw [or_iff_right hsame]
  have hfield (known : String) : Fields.get? ⟨kind.tag, fields⟩ i = some known ↔ code = known := by
    show fields[i]? = some known ↔ _
    rw [hcode, Option.some.injEq]
  -- A code that is known as it stands has no blanks, so it does not come about by adding some.
  have hunknown {known : String} (hknown : Text.Solid known.toList) :
      Fields.get? ⟨kind.tag, fields.set i code'⟩ i ≠ some known := by
    rw [hcode']
    rintro ⟨⟩
    exact hsame (hpadded.eq_of_solid hknown)
  cases kind with
  | track =>
    obtain rfl : 1 = i := Option.some.inj hkind
    exact iff_of_true (value_track_padded hagree) ⟨nofun, nofun⟩
  | arc =>
    obtain rfl : 1 = i := Option.some.inj hkind
    exact iff_of_true (value_arc_padded hagree) ⟨nofun, nofun⟩
  | rect =>
    obtain rfl : 4 = i := Option.some.inj hkind
    exact iff_of_true (value_rect_padded hagree) ⟨nofun, nofun⟩
  | circle =>
    obtain rfl : 4 = i := Option.some.inj hkind
    refine (value_circle_eq_iff hagree (hunknown (by decide))).trans ?_
    rw [Ne, hfield]
    simp
  | pad =>
    obtain rfl : 5 = i := Option.some.inj hkind
    refine (value_pad_eq_iff hagree (hunknown (by decide))).trans ?_
    rw [hfield]
    simp [ofKind]
  | solidRegion | svgNode | via => cases hkind

/-- A track and a circle are read alike with blanks around their layers. -/
theorem padded_layer_trackAndCircle :
    read ⟨.board .zero, none⟩ "TRACK~1~ 4\t~0 0 10 0" = read ⟨.board .zero, none⟩ "TRACK~1~4~0 0 10 0" ∧
    read ⟨.board .zero, none⟩ "CIRCLE~0~0~5~1~3 " = read ⟨.board .zero, none⟩ "CIRCLE~0~0~5~1~3" := by
  constructor
  · exact (padded_layer_iff ⟨.board .zero, none⟩ (show FootprintKind.layerField? .track = some 1 from rfl)
      (show Record.ofLine? "TRACK~1~4~0 0 10 0" = some ⟨"TRACK", ["1", "4", "0 0 10 0"]⟩ by decide) rfl
      (show Text.Padded "4" " 4\t" from ⟨" ", "\t", by decide, by decide, by decide⟩) (by decide)).mpr
      (.inr ⟨nofun, nofun⟩)
  · exact (padded_layer_iff ⟨.board .zero, none⟩ (show FootprintKind.layerField? .circle = some 4 from rfl)
      (show Record.ofLine? "CIRCLE~0~0~5~1~3" = some ⟨"CIRCLE", ["0", "0", "5", "1", "3"]⟩ by decide) rfl
      (show Text.Padded "3" "3 " from ⟨"", " ", by decide, by decide, by decide⟩) (by decide)).mpr
      (.inr ⟨by decide, nofun⟩)

/-- A blank takes a pad from the back to the front, and has the outline of a pad drawn. -/
theorem padded_layer_seen :
    (read ⟨.board ⟨4000, 3000⟩, none⟩ "PAD~RECT~4010~3000~4~6~2~~3~0~4008 2997 4012 2997~0~gge6~0").toOption.map
      (·.primitives.filterMap (·.pad?.map (·.layers))) = some [[.backCopper, .backPaste, .backMask]] ∧
    (read ⟨.board ⟨4000, 3000⟩, none⟩ "PAD~RECT~4010~3000~4~6~ 2~~3~0~4008 2997 4012 2997~0~gge6~0").toOption.map
      (·.primitives.filterMap (·.pad?.map (·.layers))) = some [[.frontCopper, .frontPaste, .frontMask]] ∧
    (read ⟨.board ⟨4000, 3000⟩, none⟩ "CIRCLE~4000~3000~5~1~100~gge9~0").isOk = false ∧
    (read ⟨.board ⟨4000, 3000⟩, none⟩ "CIRCLE~4000~3000~5~1~100 ~gge9~0").isOk = true := by
  decide +kernel

end Placement

end EdaParts
