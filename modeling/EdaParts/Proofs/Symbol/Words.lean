import EdaParts.Proofs.Checked
import EdaParts.Proofs.Symbol.Records
import EdaParts.Symbol.Drawing
import Mathlib.Logic.Basic

/-!
# Symbols within the words

Symbols are calculated in words of 64 bits: heights of points are turned over, angles of texts are taken
tenfold, and fields are placed around the declared size. A coordinate that is cut at the least word has no
negative, and sizes near either end of the words leave no room for the fields; short of that all of it fits.

* `SymbolPlacement.canvasPoints`, `SymbolPlacement.turns` : the points and the angles that a line is read to;
* `SymbolPlacement.calculations`, `Sheet.calculations` : what is calculated for a line and for the fields;
* `SymbolPlacement.mem_calculated_iff` : what a line draws shows all of that;
* `Sheet.calculations_fit_iff` : when all of it fits.
-/

namespace EdaParts

open Binary64 (truncated leastWord greatestWord leastWord_eq greatestWord_eq)
open Checked Reading

/-! ## What lines are read to -/

namespace SymbolPlacement

/-- The point of two fields, if both are numbers. -/
def pointAt (f : Fields) (i j : Nat) : List Point :=
  match f.number i, f.number j with
  | .ok x, .ok y => [⟨x, y⟩]
  | _, _ => []

/-- The corners of a rectangle. -/
def corners (f : Fields) : Except Skip (List Point) := do
  let long := f.values.length = 12
  let x ← f.number 0
  let y ← f.number 1
  let w ← f.number (if long then 4 else 2)
  let h ← f.number (if long then 5 else 3)
  return [⟨x, y⟩, ⟨x + w, y + h⟩]

def arcPoints (a : Arc) : List Point := [a.center, a.start, a.mid, a.stop]

/-- The points of an element of a path that is mostly curved. -/
def curvePoints : Element → List Point
  | .move _ => []
  | .line p q | .close p q => [p, q]
  | .cubic p0 p1 p2 p3 => [p0, p1, p2, p3]
  | .quadratic p0 p1 p2 => [p0, p0 + (p1 - p0).scale (2 / 3), p2 + (p1 - p2).scale (2 / 3), p2]
  | .arc a => arcPoints a

/-- The points of the runs of a path that is mostly straight, after one that has begun or not. -/
def runPoints (begun : Bool) : List Element → List Point
  | [] => []
  | e :: es =>
    if e.isMove then runPoints false es
    else (if begun then [] else [e.start]) ++ e.stop :: runPoints true es

/-- The points of a path that draws something. -/
def pathPoints (elements : List Element) : List Point :=
  let drawn := elements.countP (!·.isMove)
  let curved := elements.countP (·.isCurve)
  if drawn = 0 then []
  else if drawn - curved < curved then elements.flatMap curvePoints
  else runPoints false elements

/-- The elements of the path in the first field. -/
def elements (f : Fields) : List Element :=
  match (f.text 0).map Element.ofPath with
  | .ok (.ok es) => es
  | _ => []

/-- The points of the canvas that a record is read to, as far as it can be read. -/
def pointsOfKind (kind : SymbolKind) (f : Fields) : List Point :=
  match kind with
  | .rect => (corners f).toOption.getD []
  | .ellipse => pointAt f 0 1
  | .pin => if (f.text 1).isOk && (f.text 2).isOk then pointAt f 3 4 else []
  | .text => if (f.number 3).isOk then pointAt f 1 2 else []
  | .polyline | .polygon => (f.points 0).toOption.getD []
  | .path => pathPoints (elements f)
  | .arc => ((elements f).findSome? arc?).toList.flatMap arcPoints

/-- The angle of a text in degrees, as far as the record can be read. -/
def turnsOfKind (kind : SymbolKind) (f : Fields) : List Float :=
  match kind with
  | .text => (f.number 3).toOption.toList
  | _ => []

/-- The kind and the fields of a line. -/
def kindOf? (line : String) : Option (SymbolKind × Fields) :=
  (Record.ofLine? line).bind fun r =>
    (SymbolKind.ofTag r.tag).toOption.map fun kind => (kind, ⟨kind.tag, r.fields⟩)

/-- The points of the canvas that a line is read to. -/
def canvasPoints (line : String) : List Point :=
  (kindOf? line).toList.flatMap fun (kind, f) => pointsOfKind kind f

/-- The angles in degrees that a line is read to. -/
def turns (line : String) : List Float :=
  (kindOf? line).toList.flatMap fun (kind, f) => turnsOfKind kind f

/-- What is calculated for a line. -/
def calculations (frame : Frame) (line : String) : List Checked :=
  (turns line).map textAngle ++ (canvasPoints line).map frame.height

end SymbolPlacement

namespace Graphic

/-- The points of a graphic. -/
def points : Graphic → List MilPoint
  | rectangle start stop => [start, stop]
  | circle center _ => [center]
  | polyline points _ => points
  | arc center _ start mid stop => [center, start, mid, stop]
  | bezier p0 p1 p2 p3 => [p0, p1, p2, p3]
  | text _ position _ _ _ => [position]
  | pin p => [p.position]

/-- The angles of a graphic. -/
def angles : Graphic → List Int
  | text _ _ angle _ _ => [angle]
  | _ => []

/-- The whole numbers of a graphic that are calculated: its angles, and the heights of its points. -/
def calculated (g : Graphic) : List Int :=
  g.angles ++ g.points.map MilPoint.y

end Graphic

namespace SymbolPlacement

variable {frame : Frame} {f : Fields} {p : SymbolPlacement}

/-- What is drawn shows the points and the angles that the fields are read to. -/
structure Shows (frame : Frame) (kind : SymbolKind) (f : Fields) (p : SymbolPlacement) : Prop where
  points : ∀ m, m ∈ p.graphics.flatMap Graphic.points ↔ m ∈ (pointsOfKind kind f).map frame.mils
  angles : p.graphics.flatMap Graphic.angles = (turnsOfKind kind f).map fun x => (textAngle x).value

theorem pointAt_eq {x y : Float} {i j : Nat} (hx : f.number i = .ok x) (hy : f.number j = .ok y) :
    pointAt f i j = [⟨x, y⟩] := by
  rw [pointAt, hx, hy]

theorem shows_rect (h : rect frame f = .ok p) : Shows frame .rect f p := by
  obtain ⟨x, y, width, height, hx, hy, hwidth, hheight, rfl⟩ := rect_eq_ok_iff.mp h
  have hcorners : corners f = .ok [⟨x, y⟩, ⟨x + width, y + height⟩] := by
    rw [corners, hx, hy, hwidth, hheight]
    rfl
  refine ⟨fun m => ?_, rfl⟩
  rw [pointsOfKind, hcorners]
  rfl

theorem shows_ellipse (h : ellipse frame f = .ok p) : Shows frame .ellipse f p := by
  obtain ⟨x, y, radius, hx, hy, -, rfl⟩ := ellipse_eq_ok h
  refine ⟨fun m => ?_, rfl⟩
  rw [pointsOfKind, pointAt_eq hx hy]
  rfl

theorem shows_pin (h : (pin frame f).Yields p) : Shows frame .pin f p := by
  obtain ⟨code, number, x, y, angle, name, elements, drawn, hcode, hnumber, hx, hy, -, -, -, -, hposition, -, rfl⟩ :=
    yields_pin h
  have htexts : ((f.text 1).isOk && (f.text 2).isOk) = true := by
    rw [hcode, hnumber]
    rfl
  refine ⟨fun m => ?_, rfl⟩
  rw [pointsOfKind, if_pos htexts, pointAt_eq hx hy, List.map_singleton, ← hposition]
  rfl

theorem shows_text (h : text frame f = .ok p) : Shows frame .text f p := by
  obtain ⟨degrees, x, y, size, shown, hidden, hdegrees, hx, hy, -, -, rfl⟩ := text_eq_ok h
  have hok : (f.number 3).isOk = true := by
    rw [hdegrees]
    rfl
  refine ⟨fun m => ?_, ?_⟩
  · rw [pointsOfKind, if_pos hok, pointAt_eq hx hy]
    rfl
  · rw [turnsOfKind, hdegrees]
    rfl

theorem vertices_eq_ok {points : List MilPoint} (h : vertices frame f = .ok points) :
    points = ((f.points 0).toOption.getD []).map frame.mils := by
  unfold vertices at h
  obtain ⟨ps, hps, h⟩ := bind_eq_ok_iff.mp h
  dsimp only at h
  split at h
  · nomatch h
  · rw [hps]
    exact (Except.ok.inj h).symm

theorem shows_polyline (h : polyline frame f = .ok p) : Shows frame .polyline f p := by
  obtain ⟨points, hpoints, rfl⟩ := polyline_eq_ok h
  refine ⟨fun m => ?_, rfl⟩
  rw [pointsOfKind, ← vertices_eq_ok hpoints]
  simp [single, Graphic.points]

/-- The point that closes a polygon is one of its vertices. -/
theorem shows_polygon (h : polygon frame f = .ok p) : Shows frame .polygon f p := by
  obtain ⟨points, hpoints, rfl⟩ := polygon_eq_ok h
  refine ⟨fun m => ?_, rfl⟩
  have hclosed : m ∈ points ++ points.take 1 ↔ m ∈ points := by
    rw [List.mem_append]
    exact or_iff_left_of_imp List.mem_of_mem_take
  rw [pointsOfKind, ← vertices_eq_ok hpoints, ← hclosed]
  simp [single, Graphic.points]

theorem points_curves (es : List Element) :
    (curves frame es).flatMap Graphic.points = (es.flatMap curvePoints).map frame.mils := by
  induction es with
  | nil => rfl
  | cons e es ih =>
    rw [curves, List.filterMap_cons]
    cases e <;> simp_all [curve?, curves, curvePoints, Graphic.points, arcGraphic, arcPoints]

theorem angles_curves (es : List Element) : (curves frame es).flatMap Graphic.angles = [] := by
  rw [List.flatMap_eq_nil_iff]
  intro g hg
  obtain ⟨e, -, he⟩ := List.mem_filterMap.mp hg
  cases e <;> simp only [curve?, Option.some.injEq, reduceCtorEq] at he <;> rw [← he] <;> rfl

/-- A run is empty or has two points at least. -/
theorem points_flush {run : List MilPoint} (h : run = [] ∨ 2 ≤ run.length) :
    (flush run).flatMap Graphic.points = run.reverse := by
  unfold flush
  rcases h with rfl | hrun
  · rfl
  · rw [if_pos hrun]
    exact List.append_nil _

theorem points_polylinesFrom {run : List MilPoint} (hrun : run = [] ∨ 2 ≤ run.length) (es : List Element) :
    (polylinesFrom frame run es).flatMap Graphic.points =
      run.reverse ++ (runPoints (!run.isEmpty) es).map frame.mils := by
  induction es generalizing run with
  | nil => simp [polylinesFrom, runPoints, points_flush hrun]
  | cons e es ih =>
    unfold polylinesFrom runPoints
    by_cases hmove : e.isMove = true
    · rw [if_pos hmove, if_pos hmove, List.flatMap_append, points_flush hrun, ih (.inl rfl)]
      rfl
    · rw [if_neg hmove, if_neg hmove]
      cases run with
      | nil =>
        rw [ih (.inr (by simp))]
        simp
      | cons m run =>
        rw [ih (.inr (by simp))]
        simp

theorem angles_flush (run : List MilPoint) : (flush run).flatMap Graphic.angles = [] := by
  unfold flush
  split <;> rfl

theorem angles_polylinesFrom (run : List MilPoint) (es : List Element) :
    (polylinesFrom frame run es).flatMap Graphic.angles = [] := by
  induction es generalizing run with
  | nil => exact angles_flush run
  | cons e es ih =>
    unfold polylinesFrom
    split
    · rw [List.flatMap_append, angles_flush, ih, List.append_nil]
    · exact ih _

/-- A path that is read gives its elements. -/
theorem elements_eq {text : String} {es : List Element} (htext : f.text 0 = .ok text)
    (hes : Element.ofPath text = .ok es) : elements f = es := by
  rw [elements, htext]
  simp [Except.map, hes]

theorem shows_arc (h : arc frame f = .ok p) : Shows frame .arc f p := by
  obtain ⟨text, es, a, htext, hes, hfind, rfl⟩ := arc_eq_ok h
  refine ⟨fun m => ?_, rfl⟩
  rw [pointsOfKind, elements_eq htext hes, hfind]
  rfl

theorem shows_path (h : (path frame f).Yields p) : Shows frame .path f p := by
  obtain ⟨text, es, htext, hes, hdrawn, rfl⟩ := yields_path h
  split
  · next hcurved =>
    refine ⟨fun m => ?_, angles_curves es⟩
    rw [pointsOfKind, elements_eq htext hes, pathPoints, if_neg hdrawn, if_pos hcurved, points_curves]
  · next hstraight =>
    refine ⟨fun m => ?_, angles_polylinesFrom [] es⟩
    rw [pointsOfKind, elements_eq htext hes, pathPoints, if_neg hdrawn, if_neg hstraight, polylines,
      points_polylinesFrom (.inl rfl)]
    rfl

theorem shows_of_yields {kind : SymbolKind} (h : (ofKind frame kind f).Yields p) : Shows frame kind f p := by
  cases kind with
  | rect => exact shows_rect h
  | ellipse => exact shows_ellipse h
  | pin => exact shows_pin h
  | text => exact shows_text h
  | polyline => exact shows_polyline h
  | polygon => exact shows_polygon h
  | path => exact shows_path h
  | arc => exact shows_arc h

theorem kindOf?_of_read {line : String} (h : read frame line = .ok p) :
    ∃ kind f, kindOf? line = some (kind, f) ∧ (ofKind frame kind f).Yields p := by
  obtain ⟨kind, fields, hrecord, hyields⟩ := record_of_read h
  refine ⟨kind, _, ?_, hyields⟩
  rw [kindOf?, hrecord, Option.bind_some, SymbolKind.ofTag_eq_ok_iff.mpr rfl]
  rfl

/-- **What a line draws** shows all that is calculated for it, and nothing else that is calculated. -/
theorem mem_calculated_iff {line : String} (h : read frame line = .ok p) (n : Int) :
    n ∈ p.graphics.flatMap Graphic.calculated ↔ ∃ a ∈ calculations frame line, a.value = n := by
  obtain ⟨kind, f, hkind, hyields⟩ := kindOf?_of_read h
  have hshows := shows_of_yields hyields
  have hpoints : canvasPoints line = pointsOfKind kind f := by simp [canvasPoints, hkind]
  have hturns : turns line = turnsOfKind kind f := by simp [turns, hkind]
  have hheights : n ∈ (p.graphics.flatMap Graphic.points).map MilPoint.y ↔
      n ∈ ((canvasPoints line).map frame.height).map Checked.value := by
    have hsame := hshows.points
    rw [hpoints]
    simp only [List.mem_map, hsame]
    constructor
    · rintro ⟨m, ⟨q, hq, rfl⟩, rfl⟩
      exact ⟨_, ⟨q, hq, rfl⟩, rfl⟩
    · rintro ⟨a, ⟨q, hq, rfl⟩, rfl⟩
      exact ⟨_, ⟨q, hq, rfl⟩, rfl⟩
  have hangles : p.graphics.flatMap Graphic.angles = ((turns line).map textAngle).map Checked.value := by
    rw [hshows.angles, hturns, List.map_map]
    rfl
  have hsplit : n ∈ p.graphics.flatMap Graphic.calculated ↔
      n ∈ p.graphics.flatMap Graphic.angles ∨ n ∈ (p.graphics.flatMap Graphic.points).map MilPoint.y := by
    simp only [Graphic.calculated, List.mem_flatMap, List.mem_append, List.mem_map]
    grind
  rw [hsplit, hangles, hheights, ← List.mem_append, ← List.map_append]
  exact List.mem_map

/-! ## What fits -/

/-- The least word alone has no negative. -/
theorem exact_height (frame : Frame) (q : Point) :
    Exact (frame.height q) (-truncated ((q.y - frame.origin.y) * frame.scale))
      (leastWord < truncated ((q.y - frame.origin.y) * frame.scale)) := by
  have hwords := Binary64.inWords_truncated ((q.y - frame.origin.y) * frame.scale)
  refine (exact_given _).neg.congr ?_
  simp only [InWords, leastWord_eq, greatestWord_eq, true_and] at hwords ⊢
  omega

theorem exact_textAngle (x : Float) :
    Exact (textAngle x) (10 * truncated x) (InWords (10 * truncated x)) := by
  have hexact := (exact_given (truncated x)).mul (exact_given 10)
  rw [Int.mul_comm] at hexact
  exact hexact.congr (by simp)

/-- **What is calculated for a line** fits just if no point is cut at the least word and each angle is within a
tenth of the words. -/
theorem calculations_fit_iff (frame : Frame) (line : String) :
    (∀ a ∈ calculations frame line, a.fits = true) ↔
      (∀ q ∈ canvasPoints line, leastWord < truncated ((q.y - frame.origin.y) * frame.scale)) ∧
        ∀ x ∈ turns line, InWords (10 * truncated x) := by
  simp only [calculations, List.mem_append, or_imp, forall_and, List.forall_mem_map,
    (exact_height frame _).fits_iff, (exact_textAngle _).fits_iff]
  exact and_comm

end SymbolPlacement

namespace Sheet

/-- How far a field moves on a side, in mils. -/
def shift (wired : Bool) : Int := if wired then 120 else 0

theorem exact_nudge (wired : Bool) : Exact (nudge wired) (shift wired) True := by
  cases wired
  · exact exact_given 0
  · exact exact_given 120

/-- All that is calculated for the fields: the places of the reference and the value, and of the hidden fields,
one above the other. -/
def calculations (s : Sheet) (scale : Float) (size : Extent) : List Checked :=
  let places := s.places scale size
  [places.reference.x, places.reference.y, places.value.x, places.value.y] ++
    (List.range 6).flatMap fun line =>
      [(above places.footprint line).x, (above places.footprint line).y]

/-- Half sizes in mils that leave room for the fields within the words. -/
structure Roomy (wires : WiredSides) (w h : Int) : Prop where
  left : leastWord + 61 + shift wires.left ≤ w
  right : leastWord - 40 + shift wires.right ≤ w
  wide : w ≤ greatestWord - 200
  least : leastWord < h
  top : leastWord - 60 + shift wires.top ≤ h
  bottom : leastWord - 49 + shift wires.bottom ≤ h
  high : h ≤ greatestWord - 680 + shift wires.top

theorem shift_cases (wired : Bool) : shift wired = 0 ∨ shift wired = 120 := by
  cases wired
  · exact .inl rfl
  · exact .inr rfl

section
variable (wires : WiredSides) {w h : Int}

theorem exact_reference (hw : InWords w) (hh : InWords h) :
    Exact (placesAround wires (given w) (given h)).reference.x (-w + 60 + shift wires.left)
      (leastWord + 61 + shift wires.left ≤ w) ∧
    Exact (placesAround wires (given w) (given h)).reference.y (h + 60 - shift wires.top)
      (leastWord - 60 + shift wires.top ≤ h ∧ h ≤ greatestWord - 60) := by
  have hleft := shift_cases wires.left
  have htop := shift_cases wires.top
  simp only [InWords, leastWord_eq, greatestWord_eq] at hw hh ⊢
  constructor
  · refine (((exact_given w).neg.add (exact_given 60)).add (exact_nudge wires.left)).congr ?_
    simp only [InWords, leastWord_eq, greatestWord_eq, true_and, and_true]
    omega
  · refine (((exact_given h).add (exact_given 60)).sub (exact_nudge wires.top)).congr ?_
    simp only [InWords, leastWord_eq, greatestWord_eq, true_and, and_true]
    omega

theorem exact_value (hw : InWords w) (hh : InWords h) :
    Exact (placesAround wires (given w) (given h)).value.x (w + 40 - shift wires.right)
      (leastWord - 40 + shift wires.right ≤ w ∧ w ≤ greatestWord - 40) ∧
    Exact (placesAround wires (given w) (given h)).value.y (-h - 50 + shift wires.bottom)
      (leastWord < h ∧ leastWord - 49 + shift wires.bottom ≤ h ∧ h ≤ greatestWord - 49) := by
  have hright := shift_cases wires.right
  have hbottom := shift_cases wires.bottom
  simp only [InWords, leastWord_eq, greatestWord_eq] at hw hh ⊢
  constructor
  · refine (((exact_given w).add (exact_given 40)).sub (exact_nudge wires.right)).congr ?_
    simp only [InWords, leastWord_eq, greatestWord_eq, true_and, and_true]
    omega
  · refine (((exact_given h).neg.sub (exact_given 50)).add (exact_nudge wires.bottom)).congr ?_
    simp only [InWords, leastWord_eq, greatestWord_eq, true_and, and_true]
    omega

theorem exact_hidden (hw : InWords w) (hh : InWords h) {line : Nat} (hline : line < 6) :
    Exact (above (placesAround wires (given w) (given h)).footprint line).x (w + 200 - shift wires.right)
      (leastWord - 200 + shift wires.right ≤ w ∧ w ≤ greatestWord - 200) ∧
    Exact (above (placesAround wires (given w) (given h)).footprint line).y
      (h + 180 - shift wires.top + 100 * line)
      (leastWord - 180 + shift wires.top ≤ h ∧ h ≤ greatestWord - 180 ∧
        h ≤ greatestWord - 180 - 100 * line + shift wires.top) := by
  have hright := shift_cases wires.right
  have htop := shift_cases wires.top
  simp only [InWords, leastWord_eq, greatestWord_eq] at hw hh ⊢
  constructor
  · refine (((exact_given w).add (exact_given 200)).sub (exact_nudge wires.right)).congr ?_
    simp only [InWords, leastWord_eq, greatestWord_eq, true_and, and_true]
    omega
  · have hrise := (exact_given 100).mul (exact_given line)
    refine ((((exact_given h).add (exact_given 180)).sub (exact_nudge wires.top)).add hrise).congr ?_
    simp only [InWords, leastWord_eq, greatestWord_eq, true_and, and_true]
    omega

end

/-- **What is calculated for the fields** fits just if the half sizes leave room for it. -/
theorem calculations_fit_iff (s : Sheet) (scale : Float) (size : Extent) :
    (∀ a ∈ s.calculations scale size, a.fits = true) ↔
      Roomy s.wires (half scale size.width) (half scale size.height) := by
  have hw : InWords (half scale size.width) := Binary64.inWords_truncated _
  have hh : InWords (half scale size.height) := Binary64.inWords_truncated _
  have hreference := exact_reference s.wires hw hh
  have hvalue := exact_value s.wires hw hh
  have hhidden {line : Nat} (hline : line < 6) := exact_hidden s.wires hw hh hline
  have hright := shift_cases s.wires.right
  have htop := shift_cases s.wires.top
  simp only [calculations, places, List.forall_mem_append, List.forall_mem_cons, List.not_mem_nil, false_imp_iff,
    implies_true, and_true, List.forall_mem_flatMap, List.mem_range, hreference.1.fits_iff,
    hreference.2.fits_iff, hvalue.1.fits_iff, hvalue.2.fits_iff]
  constructor
  · rintro ⟨⟨hleft, ⟨htop, -⟩, ⟨hright, -⟩, hleast, hbottom, -⟩, hstack⟩
    -- The hidden fields reach farthest, the last of them highest.
    obtain ⟨hx, hy⟩ := hstack 5 (by omega)
    obtain ⟨-, hwide⟩ := (hhidden (by omega)).1.fits_iff.mp hx
    obtain ⟨-, -, hhigh⟩ := (hhidden (by omega)).2.fits_iff.mp hy
    exact ⟨hleft, hright, hwide, hleast, htop, hbottom, by omega⟩
  · intro hroomy
    obtain ⟨hleft, hright', hwide, hleast, htop', hbottom, hhigh⟩ := hroomy
    refine ⟨⟨hleft, ⟨htop', by omega⟩, ⟨hright', by omega⟩, hleast, hbottom, by omega⟩, fun line hline => ?_⟩
    rw [(hhidden hline).1.fits_iff, (hhidden hline).2.fits_iff]
    omega

/-- The places of the fields in order, calculated exactly. -/
def exactPlaces (wires : WiredSides) (w h : Int) : List MilPoint :=
  [⟨-w + 60 + shift wires.left, h + 60 - shift wires.top⟩,
    ⟨w + 40 - shift wires.right, -h - 50 + shift wires.bottom⟩] ++
  (List.range 6).map fun line =>
    ⟨w + 200 - shift wires.right, h + 180 - shift wires.top + 100 * line⟩

/-- With room enough the fields stand where they should. -/
theorem positions_fields {s : Sheet} {scale : Float} {size : Extent}
    (h : Roomy s.wires (half scale size.width) (half scale size.height)) (info : ComponentInfo)
    (footprint : String) :
    (s.finish scale info size footprint).fields.map SymbolField.position =
      exactPlaces s.wires (half scale size.width) (half scale size.height) := by
  have hw : InWords (half scale size.width) := Binary64.inWords_truncated _
  have hh : InWords (half scale size.height) := Binary64.inWords_truncated _
  have hright := shift_cases s.wires.right
  have htop := shift_cases s.wires.top
  have hleast := h.least
  have hhigh := h.high
  have hwide := h.wide
  have hreference := exact_reference s.wires hw hh
  have hvalue := exact_value s.wires hw hh
  have hreferencePoint : (s.places scale size).reference.point =
      ⟨-half scale size.width + 60 + shift s.wires.left, half scale size.height + 60 - shift s.wires.top⟩ :=
    congrArg₂ MilPoint.mk (hreference.1.value_eq h.left) (hreference.2.value_eq ⟨h.top, by omega⟩)
  have hvaluePoint : (s.places scale size).value.point =
      ⟨half scale size.width + 40 - shift s.wires.right, -half scale size.height - 50 + shift s.wires.bottom⟩ :=
    congrArg₂ MilPoint.mk (hvalue.1.value_eq ⟨h.right, by omega⟩)
      (hvalue.2.value_eq ⟨hleast, h.bottom, by omega⟩)
  have hhidden : ∀ line ∈ List.range 6, (above (s.places scale size).footprint line).point =
      ⟨half scale size.width + 200 - shift s.wires.right,
        half scale size.height + 180 - shift s.wires.top + 100 * line⟩ := by
    intro line hline
    have hexact := exact_hidden s.wires hw hh (List.mem_range.mp hline)
    have hroom := h.right
    have hbelow := h.top
    have hline := List.mem_range.mp hline
    exact congrArg₂ MilPoint.mk (hexact.1.value_eq ⟨by omega, hwide⟩)
      (hexact.2.value_eq ⟨by omega, by omega, by omega⟩)
  have hpositions : (s.finish scale info size footprint).fields.map SymbolField.position =
      [(s.places scale size).reference.point, (s.places scale size).value.point] ++
        (List.range 6).map fun line => (above (s.places scale size).footprint line).point := rfl
  rw [hpositions, hreferencePoint, hvaluePoint, List.map_congr_left hhidden]
  rfl

/-- A frame that counts from the corner of the canvas, ten mils to its unit. -/
def fromCorner : Frame := .schematic .zero 10

end Sheet

end EdaParts
