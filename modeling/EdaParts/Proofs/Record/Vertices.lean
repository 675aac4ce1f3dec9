import EdaParts.Proofs.Footprint.Extent
import EdaParts.Proofs.Symbol.Words
import Mathlib.Data.List.OfFn

/-!
# Lists of vertices

The vertices of tracks, polylines and polygons stand in one field, two words each. All of them are drawn, in order, and
one word that is no finite number is enough for the record to be skipped.

* `Fields.points_eq` : the vertices of a field, or the word that is to blame;
* `Placement.segments_eq` : the lines between neighbours;
* `Placement.read_track`, `SymbolPlacement.read_polyline`, `SymbolPlacement.read_polygon` : records with a list of
  vertices;
* `vertices_drawn` : what such a record draws.
-/

namespace EdaParts

open Reading

/-! ## Fields -/

/-- The first word that is no finite number. -/
def badWord? (s : String) : Option String :=
  ((Text.words s.toList).find? fun w => (finiteNumber? w).isNone).map String.ofList

/-- The number of a word, which stands for zero if it is no finite number. -/
def coordinate (s : String) (i : Nat) : Float :=
  ((Text.words s.toList)[i]?.bind finiteNumber?).getD 0

/-- The vertices of a list of words, two words each. -/
def vertexList (s : String) : List Point :=
  List.ofFn fun i : Fin ((Text.words s.toList).length / 2) => ⟨coordinate s (2 * i), coordinate s (2 * i + 1)⟩

namespace Fields

variable {f : Fields} {i : Nat} {s : String}

/-- Numbers are paired up from the front, and an odd one is left out. -/
theorem getElem?_pairUp (xs : List Float) (i : Nat) :
    (pairUp xs)[i]? = if h : 2 * i + 1 < xs.length then some ⟨xs[2 * i], xs[2 * i + 1]⟩ else none := by
  induction xs using pairUp.induct generalizing i with
  | case1 x y rest ih =>
    rw [pairUp]
    cases i with
    | zero => simp
    | succ i =>
      have hlength : 2 * i + 1 < rest.length ↔ 2 * (i + 1) + 1 < (x :: y :: rest).length := by
        rw [List.length_cons, List.length_cons]
        omega
      rw [List.getElem?_cons_succ, ih]
      exact dite_congr (propext hlength) (fun _ => by simp [Nat.mul_succ]) fun _ => rfl
  | case2 xs hxs =>
    rw [pairUp.eq_def]
    rcases xs with _ | ⟨x, _ | ⟨y, rest⟩⟩
    · simp
    · simp
    · exact absurd rfl (hxs x y rest)

/-- Words are read one by one, up to the first that is no finite number. -/
theorem mapM_numberIn (f : Fields) (i : Nat) (ws : List (List Char)) :
    ws.mapM (f.numberIn i) =
      match ws.find? fun w => (finiteNumber? w).isNone with
      | some w => .error (.badNumber f.kind i (String.ofList w))
      | none => .ok (ws.map fun w => (finiteNumber? w).getD 0) := by
  induction ws with
  | nil => rfl
  | cons w ws ih =>
    rw [List.mapM_cons, ih, List.find?_cons, numberIn]
    cases hw : finiteNumber? w with
    | none => rfl
    | some x =>
      dsimp only [Option.isNone_some]
      cases ws.find? fun w => (finiteNumber? w).isNone with
      | some w => rfl
      | none =>
        rw [List.map_cons, hw]
        rfl

/-- **The vertices of a field** are those of its words, if each of them is a finite number. -/
theorem points_eq (h : f.get? i = some s) : f.points i =
    match badWord? s with
    | some w => .error (.badNumber f.kind i w)
    | none => .ok (vertexList s) := by
  have hpoints : pairUp ((Text.words s.toList).map fun w => (finiteNumber? w).getD 0) = vertexList s := by
    refine List.ext_getElem? fun j => ?_
    have hhalf : 2 * j + 1 < (Text.words s.toList).length ↔ j < (Text.words s.toList).length / 2 := by omega
    rw [getElem?_pairUp, vertexList, List.getElem?_ofFn]
    simp only [List.length_map, hhalf]
    refine dite_congr rfl (fun hj => ?_) fun _ => rfl
    have hj := hhalf.mpr hj
    simp [coordinate, List.getElem?_eq_getElem hj, List.getElem?_eq_getElem (Nat.lt_of_succ_lt hj)]
  rw [points, text, h]
  show (((Text.words s.toList).mapM (f.numberIn i)) >>= fun xs => pure (pairUp xs)) = _
  rw [mapM_numberIn, badWord?]
  cases (Text.words s.toList).find? fun w => (finiteNumber? w).isNone with
  | some w => rfl
  | none => exact congrArg Except.ok hpoints

end Fields

/-! ## Tracks -/

namespace Placement

variable {c : FootprintContext} {f : Fields} {line : String}

/-- The lines between neighbours of a list of vertices, by their positions. -/
def linesBetween (width : Float) (layer : Layer) (nodes : List Point) : List Primitive :=
  List.ofFn fun i : Fin (nodes.length - 1) => .line nodes[i.1] nodes[i.1 + 1] width layer

theorem getElem?_segments (width : Float) (layer : Layer) (nodes : List Point) (i : Nat) :
    (segments width layer nodes)[i]? =
      if h : i + 1 < nodes.length then some (.line nodes[i] nodes[i + 1] width layer) else none := by
  induction nodes generalizing i with
  | nil => rfl
  | cons p nodes ih =>
    cases nodes with
    | nil => simp [segments]
    | cons q nodes =>
      rw [segments]
      cases i with
      | zero => simp
      | succ i =>
        rw [List.getElem?_cons_succ, ih]
        exact dite_congr (propext (Nat.add_lt_add_iff_right (k := 1)).symm) (fun _ => rfl) fun _ => rfl

theorem segments_eq (width : Float) (layer : Layer) (nodes : List Point) :
    segments width layer nodes = linesBetween width layer nodes := by
  refine List.ext_getElem? fun i => ?_
  rw [getElem?_segments, linesBetween, List.getElem?_ofFn]
  exact dite_congr (propext (Nat.lt_sub_iff_add_lt).symm) (fun _ => rfl) fun _ => rfl

/-- The layer of a track, which the short form leaves out. -/
def trackLayer (f : Fields) : Layer :=
  if (f.get? 1).any isPointList then .fallback else (Layer.ofCode? ((f.get? 1).getD "")).getD .fallback

/-- A track is skipped for its width or its vertices alone. -/
theorem value_track (c : FootprintContext) (f : Fields) :
    (track c f).run.value = (f.number 0).bind fun width => (f.points (trackField f)).bind fun vs =>
      .ok ⟨segments (c.frame.length width) (trackLayer f) (vs.map c.frame.point), vs.map c.frame.point, none⟩ := by
  unfold track
  rw [value_bind]
  refine congrArg _ (funext fun width => ?_)
  rw [trackField, trackLayer]
  by_cases hshort : (f.get? 1).any isPointList = true
  · simp only [hshort, if_true]
    exact (value_bind _ _).trans ((value_bind _ _).trans (value_bind _ _))
  · simp only [hshort, Bool.false_eq_true, if_false]
    rw [value_bind, value_layerAt]
    exact value_bind _ _

/-- What a track with these vertices places: it is skipped for its width, or for the first bad word of them. -/
def ofVertices (c : FootprintContext) (width : String) (layer : Layer) (index : Nat) (points : String) :
    Except Skip Placement :=
  match finiteNumber? width.toList, badWord? points with
  | none, _ => .error (.badNumber "TRACK" 0 width)
  | some _, some word => .error (.badNumber "TRACK" index word)
  | some w, none =>
    let nodes := (vertexList points).map c.frame.point
    .ok ⟨linesBetween (c.frame.length w) layer nodes, nodes, none⟩

theorem read_track {width points : String} {fields : List String}
    (hline : Record.ofLine? line = some ⟨"TRACK", width :: fields⟩)
    (hpoints : Fields.get? ⟨"TRACK", width :: fields⟩ (trackField ⟨"TRACK", width :: fields⟩) = some points) :
    read c line =
      ofVertices c width (trackLayer ⟨"TRACK", width :: fields⟩) (trackField ⟨"TRACK", width :: fields⟩) points := by
  have hnumber : Fields.number ⟨"TRACK", width :: fields⟩ 0 =
      match finiteNumber? width.toList with
      | none => .error (.badNumber "TRACK" 0 width)
      | some w => .ok w := by
    show Fields.numberIn _ 0 width.toList = _
    rw [Fields.numberIn, String.ofList_toList]
    cases finiteNumber? width.toList <;> rfl
  rw [value_of_record .track hline]
  show (track c ⟨"TRACK", width :: fields⟩).run.value = _
  rw [value_track, hnumber, Fields.points_eq hpoints, ofVertices]
  cases finiteNumber? width.toList with
  | none => rfl
  | some w =>
    cases badWord? points with
    | some word => rfl
    | none => exact congrArg (fun ls => Except.ok (Placement.mk ls _ none)) (segments_eq _ _ _)

/-- A track with a layer. -/
theorem read_layeredTrack {width code points : String} {rest : List String}
    (hline : Record.ofLine? line = some ⟨"TRACK", width :: code :: points :: rest⟩) (hcode : isPointList code = false) :
    read c line = ofVertices c width ((Layer.ofCode? code).getD .fallback) 2 points := by
  have hfield : trackField ⟨"TRACK", width :: code :: points :: rest⟩ = 2 := by simp [trackField, Fields.get?, hcode]
  have hlayer : trackLayer ⟨"TRACK", width :: code :: points :: rest⟩ = (Layer.ofCode? code).getD .fallback := by
    simp [trackLayer, Fields.get?, hcode]
  rw [read_track hline (by rw [hfield]; rfl), hfield, hlayer]

/-- A track in the short form. -/
theorem read_shortTrack {width points : String} {rest : List String}
    (hline : Record.ofLine? line = some ⟨"TRACK", width :: points :: rest⟩) (hshort : isPointList points = true) :
    read c line = ofVertices c width .fallback 1 points := by
  have hfield : trackField ⟨"TRACK", width :: points :: rest⟩ = 1 := by simp [trackField, Fields.get?, hshort]
  have hlayer : trackLayer ⟨"TRACK", width :: points :: rest⟩ = .fallback := by simp [trackLayer, Fields.get?, hshort]
  rw [read_track hline (by rw [hfield]; rfl), hfield, hlayer]

/-- Where the vertices stand is only told by how the record is skipped. -/
theorem toOption_ofVertices (c : FootprintContext) (width : String) (layer : Layer) (i j : Nat) (points : String) :
    (ofVertices c width layer i points).toOption = (ofVertices c width layer j points).toOption := by
  unfold ofVertices
  cases finiteNumber? width.toList with
  | none => rfl
  | some w => cases badWord? points <;> rfl

end Placement

/-! ## Polylines and polygons -/

namespace SymbolPlacement

variable {frame : Frame} {f : Fields} {line : String}

/-- What a record with these vertices places: it is skipped for the first bad word of them, or for lack of them. -/
def ofVertices (frame : Frame) (kind : String) (points : String) (draw : MilPoint → List MilPoint → Graphic) :
    Except Skip SymbolPlacement :=
  match badWord? points with
  | some word => .error (.badNumber kind 0 word)
  | none =>
    match (vertexList points).map frame.mils with
    | [] => .error (.pathShape kind "no vertices")
    | p :: ps => .ok (single (draw p ps))

theorem vertices_eq (frame : Frame) (kind points : String) (rest : List String) :
    vertices frame ⟨kind, points :: rest⟩ =
      match badWord? points with
      | some word => .error (.badNumber kind 0 word)
      | none =>
        match (vertexList points).map frame.mils with
        | [] => .error (.pathShape kind "no vertices")
        | p :: ps => .ok (p :: ps) := by
  have hpoints : Fields.get? ⟨kind, points :: rest⟩ 0 = some points := rfl
  rw [vertices, Fields.points_eq hpoints]
  cases badWord? points with
  | some word => rfl
  | none =>
    show (if ((vertexList points).map frame.mils).isEmpty then _ else _) = _
    cases (vertexList points).map frame.mils <;> rfl

theorem read_polyline {points : String} {rest : List String}
    (hline : Record.ofLine? line = some ⟨"PL", points :: rest⟩) :
    read frame line = ofVertices frame "PL" points fun p ps => .polyline (p :: ps) false := by
  rw [value_of_record .polyline hline]
  show polyline frame ⟨"PL", points :: rest⟩ = _
  rw [polyline, vertices_eq, ofVertices]
  cases badWord? points with
  | some word => rfl
  | none => cases (vertexList points).map frame.mils <;> rfl

theorem read_polygon {points : String} {rest : List String}
    (hline : Record.ofLine? line = some ⟨"PG", points :: rest⟩) :
    read frame line = ofVertices frame "PG" points fun p ps => .polyline (p :: ps ++ [p]) true := by
  rw [value_of_record .polygon hline]
  show polygon frame ⟨"PG", points :: rest⟩ = _
  rw [polygon, vertices_eq, ofVertices]
  cases badWord? points with
  | some word => rfl
  | none => cases (vertexList points).map frame.mils <;> rfl

end SymbolPlacement

/-! ## Records -/

open Placement (isPointList)

/-- **Lists of vertices are drawn whole.** A track draws a line from each of its vertices to the next with its width and
layer, and reports them all; its layer is looked up, or is that of code 3 in the short form. A polyline goes through
its vertices and a polygon back to the first of them, if there is one. Such a record is skipped for its first word that
is no finite number. -/
theorem vertices_drawn (c : FootprintContext) (frame : Frame) (line points : String) (rest : List String) :
    (∀ width code, Record.ofLine? line = some ⟨"TRACK", width :: code :: points :: rest⟩ → isPointList code = false →
      Placement.read c line = Placement.ofVertices c width ((Layer.ofCode? code).getD .fallback) 2 points) ∧
    (∀ width, Record.ofLine? line = some ⟨"TRACK", width :: points :: rest⟩ → isPointList points = true →
      Placement.read c line = Placement.ofVertices c width .fallback 1 points ∧
      ∀ long, Record.ofLine? long = some ⟨"TRACK", width :: "3" :: points :: rest⟩ →
        (Placement.read c long).toOption = (Placement.read c line).toOption) ∧
    (Record.ofLine? line = some ⟨"PL", points :: rest⟩ →
      SymbolPlacement.read frame line =
        SymbolPlacement.ofVertices frame "PL" points fun p ps => .polyline (p :: ps) false) ∧
    (Record.ofLine? line = some ⟨"PG", points :: rest⟩ →
      SymbolPlacement.read frame line =
        SymbolPlacement.ofVertices frame "PG" points fun p ps => .polyline (p :: ps ++ [p]) true) := by
  refine ⟨fun width code hline hcode => Placement.read_layeredTrack hline hcode, fun width hline hshort =>
    ⟨Placement.read_shortTrack hline hshort, fun long hlong => ?_⟩, SymbolPlacement.read_polyline,
    SymbolPlacement.read_polygon⟩
  rw [Placement.read_shortTrack hline hshort, Placement.read_layeredTrack hlong (by decide)]
  exact Placement.toOption_ofVertices c width .fallback 2 1 points

/-- A track in the short form is drawn on the layer of code 3, and a polygon is closed. -/
theorem vertices_drawn_corner :
    ((Placement.read ⟨.board .zero, none⟩ "TRACK~1~0 0 100 0 100 200 7").toOption.map (·.extents) =
        some [⟨0, 0⟩, ⟨25.4, 0⟩, ⟨25.4, 50.8⟩] ∧
      (Placement.read ⟨.board .zero, none⟩ "TRACK~1~3~0 0 100 0 100 200 7").toOption =
        (Placement.read ⟨.board .zero, none⟩ "TRACK~1~0 0 100 0 100 200 7").toOption) ∧
    (SymbolPlacement.read (.schematic .zero 10) "PG~0 0 1 0 1 2").toOption.map (·.graphics) =
      some [.polyline [⟨0, 0⟩, ⟨10, 0⟩, ⟨10, -20⟩, ⟨0, 0⟩] true] := by
  obtain ⟨-, htrack, -, -⟩ := vertices_drawn ⟨.board .zero, none⟩ (.schematic .zero 10)
    "TRACK~1~0 0 100 0 100 200 7" "0 0 100 0 100 200 7" []
  obtain ⟨-, -, -, hpolygon⟩ := vertices_drawn ⟨.board .zero, none⟩ (.schematic .zero 10)
    "PG~0 0 1 0 1 2" "0 0 1 0 1 2" []
  obtain ⟨hshort, hlong⟩ := htrack "1" (by decide) (by decide)
  refine ⟨⟨?_, hlong "TRACK~1~3~0 0 100 0 100 200 7" (by decide)⟩, ?_⟩
  · rw [hshort]
    decide +kernel
  · rw [hpolygon (by decide)]
    decide +kernel

end EdaParts
