import EdaParts.Proofs.Symbol.Words
import Mathlib.Data.List.Forall2

/-!
# Drawn paths of symbols

The record of a path draws every element that is not a move. A path of mostly curves is drawn element by element, each
graphic with the ends of its element; any other path is drawn run by run, as a line from where the run begins through
the ends of all its elements. A path of moves alone is skipped.

* `Element.runs` : the runs of elements between moves; `Element.flatten_runs` : they hold all that is drawn;
* `SymbolPlacement.runLine` : the line of a run; `SymbolPlacement.polylinesFrom_eq`, `SymbolPlacement.polylines_eq` :
  straight paths by runs;
* `SymbolPlacement.forall₂_curves` : curved paths by elements;
* `SymbolPlacement.path_draws_every_element` : records of paths.
-/

namespace EdaParts

/-- A step that gives a result is followed by what is done with it. -/
theorem Reading.liftM_ok_bind {α β : Type} (a : α) (f : α → Reading β) :
    (liftM (Except.ok a : Except Skip α) : Reading α) >>= f = f a :=
  rfl

/-- A loop whose rounds do not skip the record does not skip it. -/
theorem Reading.yields_forIn {α : Type} {f : α → Reading (ForInStep PUnit)} (h : ∀ a, Yields (f a) (.yield ⟨⟩))
    (as : List α) : Yields (forIn as ⟨⟩ fun a _ => f a) ⟨⟩ := by
  induction as with
  | nil => exact yields_pure.mpr rfl
  | cons a as ih =>
    rw [List.forIn_cons]
    exact yields_bind.mpr ⟨_, h a, ih⟩

namespace Graphic

/-- The point where a line, a curve or an arc begins. -/
def start? : Graphic → Option MilPoint
  | polyline points _ => points.head?
  | bezier p _ _ _ => some p
  | arc _ _ p _ _ => some p
  | _ => none

/-- The point where a line, a curve or an arc ends. -/
def stop? : Graphic → Option MilPoint
  | polyline points _ => points.getLast?
  | bezier _ _ _ p => some p
  | arc _ _ _ _ p => some p
  | _ => none

end Graphic

namespace Element

/-- The elements that draw something. -/
def drawn (es : List Element) : List Element :=
  es.filter (!·.isMove)

/-- The maximal runs of elements that draw something. -/
def runs (es : List Element) : List (List Element) :=
  (es.splitOnP isMove).filter (!·.isEmpty)

/-- The runs hold all elements that draw something, in order. -/
theorem flatten_runs (es : List Element) : (runs es).flatten = drawn es := by
  rw [runs, List.flatten_filter_not_isEmpty]
  induction es with
  | nil => rfl
  | cons e es ih =>
    rw [List.splitOnP_cons_eq_if_modifyHead, drawn, List.filter_cons]
    obtain ⟨run, rest, hsplit⟩ := List.exists_cons_of_ne_nil (List.splitOnP_ne_nil isMove es)
    rw [hsplit] at ih ⊢
    cases e.isMove with
    | true => exact ih
    | false => exact congrArg (e :: ·) ih

theorem countP_isCurve_drawn (es : List Element) : (drawn es).countP (·.isCurve) = es.countP (·.isCurve) := by
  rw [drawn, List.countP_filter]
  congr 1
  funext e
  cases e <;> rfl

end Element

namespace SymbolPlacement

open Element (runs drawn flatten_runs countP_isCurve_drawn)
open Reading
open Sheet (fromCorner)

variable {frame : Frame} {f : Fields}

/-! ## Straight paths -/

/-- The line of a run: from where its first element begins through where each of them ends. -/
def runLine (frame : Frame) (run : List Element) : Graphic :=
  .polyline ((run.head?.map fun e => frame.mils e.start).toList ++ run.map fun e => frame.mils e.stop) false

/-- The points of a run that is given last first, last first. -/
def behind (frame : Frame) (run : List Element) : List MilPoint :=
  run.map (fun e => frame.mils e.stop) ++ (run.getLast?.map fun e => frame.mils e.start).toList

theorem behind_cons (frame : Frame) (e : Element) (run : List Element) :
    behind frame (e :: run) =
      frame.mils e.stop :: if (behind frame run).isEmpty then [frame.mils e.start] else behind frame run := by
  cases run with
  | nil => rfl
  | cons e' run =>
    rw [behind, List.getLast?_cons_cons]
    rfl

theorem flush_behind (frame : Frame) (run : List Element) :
    flush (behind frame run) = ([run.reverse].filter (!·.isEmpty)).map (runLine frame) := by
  cases run with
  | nil => rfl
  | cons e run =>
    have hfirst : (e :: run).getLast? = some ((e :: run).getLast (List.cons_ne_nil e run)) :=
      List.getLast?_eq_some_getLast _
    have hlength : 2 ≤ (behind frame (e :: run)).length := by
      rw [behind, hfirst]
      simp
    have hpoints : (behind frame (e :: run)).reverse =
        ((e :: run).reverse.head?.map fun e => frame.mils e.start).toList ++
          (e :: run).reverse.map fun e => frame.mils e.stop := by
      rw [behind, List.head?_reverse, hfirst, List.reverse_append, List.map_reverse]
      rfl
    rw [flush, if_pos hlength, hpoints, List.filter_cons_of_pos (by simp)]
    rfl

/-- The lines of the elements that follow a run are those of the runs that it begins. -/
theorem polylinesFrom_eq (frame : Frame) (run es : List Element) :
    polylinesFrom frame (behind frame run) es =
      ((es.splitOnPPrepend Element.isMove run).filter (!·.isEmpty)).map (runLine frame) := by
  induction es generalizing run with
  | nil =>
    rw [List.splitOnPPrepend_nil]
    exact flush_behind frame run
  | cons e es ih =>
    rw [polylinesFrom]
    cases hmove : e.isMove with
    | true =>
      have hrest := ih []
      rw [← List.splitOnP_eq_splitOnPPrepend] at hrest
      rw [if_pos rfl, List.splitOnPPrepend_cons_pos hmove, ← List.singleton_append, List.filter_append,
        List.map_append, ← hrest, ← flush_behind]
      rfl
    | false =>
      rw [if_neg Bool.false_ne_true, List.splitOnPPrepend_cons_neg (by simp [hmove]), ← ih, behind_cons]

/-- **A straight path** is drawn by a line for each run. -/
theorem polylines_eq (frame : Frame) (es : List Element) : polylines frame es = (runs es).map (runLine frame) := by
  rw [runs, List.splitOnP_eq_splitOnPPrepend]
  exact polylinesFrom_eq frame [] es

/-- The line of a run has a point more than the run has elements. -/
theorem exists_points_runLine {es run : List Element} (h : run ∈ runs es) :
    ∃ points, runLine frame run = .polyline points false ∧ points.length = run.length + 1 ∧ 2 ≤ points.length := by
  cases run with
  | nil => simp [runs] at h
  | cons e run => exact ⟨_, rfl, by simp, by simp⟩

/-! ## Curved paths -/

/-- The graphic has the ends of the element. -/
def Spans (frame : Frame) (e : Element) (g : Graphic) : Prop :=
  g.start? = some (frame.mils e.start) ∧ g.stop? = some (frame.mils e.stop)

/-- **A curved path** is drawn by a graphic for each element, from its beginning to its end. -/
theorem forall₂_curves (frame : Frame) (es : List Element) :
    List.Forall₂ (Spans frame) (drawn es) (curves frame es) := by
  induction es with
  | nil => exact .nil
  | cons e es ih =>
    cases e with
    | move p => exact ih
    | _ => exact .cons ⟨rfl, rfl⟩ ih

/-! ## Records -/

/-- The elements that draw something decide whether the path is skipped, drawn by elements or drawn by runs. -/
theorem value_path {text : String} {es : List Element} (htext : f.text 0 = .ok text)
    (hes : Element.ofPath text = .ok es) :
    (path frame f).run.value =
      if drawn es = [] then .error (.pathShape "PT" "path draws nothing")
      else if (drawn es).length < 2 * (drawn es).countP (·.isCurve) then .ok ⟨curves frame es, none⟩
      else .ok ⟨(runs es).map (runLine frame), none⟩ := by
  have hread : (Element.ofPath text).mapError (Skip.badPath "PT") = .ok es := by rw [hes]; rfl
  have hdrawn : es.countP (!·.isMove) = (drawn es).length := List.countP_eq_length_filter
  have hcurved : es.countP (·.isCurve) = (drawn es).countP (·.isCurve) := (countP_isCurve_drawn es).symm
  have hle : (drawn es).countP (·.isCurve) ≤ (drawn es).length := List.countP_le_length
  unfold path
  rw [htext, liftM_ok_bind, hread, liftM_ok_bind]
  dsimp only
  rw [hdrawn, hcurved]
  by_cases hnil : drawn es = []
  · rw [if_pos hnil, if_pos (List.length_eq_zero_iff.mpr hnil)]
    rfl
  · rw [if_neg hnil, if_neg fun h => hnil (List.length_eq_zero_iff.mp h)]
    by_cases hmostly : (drawn es).length < 2 * (drawn es).countP (·.isCurve)
    · rw [if_pos hmostly, if_pos (by omega)]
      rfl
    · rw [if_neg hmostly, if_neg (by omega)]
      refine yields_bind.mpr ⟨⟨⟩, yields_forIn (fun e => ?_) es, yields_pure.mpr (by rw [polylines_eq])⟩
      split
      · exact yields_bind.mpr ⟨⟨⟩, yields_note, yields_pure.mpr rfl⟩
      · exact yields_pure.mpr rfl

/-- **Records of paths draw every element.** A path of moves alone is skipped. A path of which more than half is curved
is drawn by one graphic for each element that is not a move, in order, with the ends of the element. Any other path is
drawn by one open line for each run of such elements, in order, from where the run begins through the ends of all its
elements, and the runs hold them all. -/
theorem path_draws_every_element (frame : Frame) {line text : String} {fields : List String} {es : List Element}
    (hrecord : Record.ofLine? line = some ⟨SymbolKind.path.tag, text :: fields⟩) (hes : Element.ofPath text = .ok es) :
    (drawn es = [] → read frame line = .error (.pathShape "PT" "path draws nothing")) ∧
    (drawn es ≠ [] → ∃ graphics, read frame line = .ok ⟨graphics, none⟩ ∧
      ((drawn es).length < 2 * (drawn es).countP (·.isCurve) → List.Forall₂ (Spans frame) (drawn es) graphics) ∧
      (2 * (drawn es).countP (·.isCurve) ≤ (drawn es).length →
        graphics = (runs es).map (runLine frame) ∧ (runs es).flatten = drawn es ∧
        ∀ run ∈ runs es, ∃ points, runLine frame run = .polyline points false ∧
          points.length = run.length + 1 ∧ 2 ≤ points.length)) := by
  have hread : read frame line = (path frame ⟨SymbolKind.path.tag, text :: fields⟩).run.value := by
    rw [read, ofLine, hrecord]
    rfl
  rw [value_path rfl hes] at hread
  refine ⟨fun hnil => by rw [hread, if_pos hnil], fun hsome => ?_⟩
  rw [if_neg hsome] at hread
  split at hread
  · next hmostly => exact ⟨_, hread, fun _ => forall₂_curves frame es, fun h => absurd hmostly (by omega)⟩
  · next hrest =>
    exact ⟨_, hread, fun h => absurd h hrest, fun _ => ⟨rfl, flatten_runs es, fun run => exists_points_runLine⟩⟩

/-- Two runs of lines and closings, and a path of which two thirds are curved. -/
theorem path_draws_every_element_bracket :
    (∃ es graphics, Element.ofPath "M 0 0 h 10 v 10 z m 20 0 l 5 5" = .ok es ∧
      read fromCorner "PT~M 0 0 h 10 v 10 z m 20 0 l 5 5~#880000" = .ok ⟨graphics, none⟩ ∧
      graphics = (runs es).map (runLine fromCorner) ∧ (runs es).map List.length = [3, 1]) ∧
    (∃ es graphics, Element.ofPath "M 0 0 q 5 5 10 0 t 10 0 z" = .ok es ∧
      read fromCorner "PT~M 0 0 q 5 5 10 0 t 10 0 z~#880000" = .ok ⟨graphics, none⟩ ∧
      List.Forall₂ (Spans fromCorner) (drawn es) graphics ∧ (drawn es).length = 3) := by
  have hruns : (Element.ofPath "M 0 0 h 10 v 10 z m 20 0 l 5 5").map
      (fun es => ((runs es).map List.length, (drawn es).length, (drawn es).countP (·.isCurve))) = .ok ([3, 1], 4, 0) := by
    decide +kernel
  have hcounts : (Element.ofPath "M 0 0 q 5 5 10 0 t 10 0 z").map
      (fun es => ((drawn es).length, (drawn es).countP (·.isCurve))) = .ok (3, 2) := by
    decide +kernel
  have hstraight : Record.ofLine? "PT~M 0 0 h 10 v 10 z m 20 0 l 5 5~#880000" =
      some ⟨SymbolKind.path.tag, ["M 0 0 h 10 v 10 z m 20 0 l 5 5", "#880000"]⟩ := by
    decide
  have hcurved : Record.ofLine? "PT~M 0 0 q 5 5 10 0 t 10 0 z~#880000" =
      some ⟨SymbolKind.path.tag, ["M 0 0 q 5 5 10 0 t 10 0 z", "#880000"]⟩ := by
    decide
  constructor
  · obtain ⟨es, hes, hcounts⟩ := map_eq_ok_iff.mp hruns
    obtain ⟨hlengths, hcounts⟩ := Prod.mk.inj hcounts
    obtain ⟨hlength, hcurves⟩ := Prod.mk.inj hcounts
    obtain ⟨graphics, hread, -, hlines⟩ := (path_draws_every_element fromCorner hstraight hes).2
      (List.ne_nil_of_length_eq_add_one hlength)
    exact ⟨es, graphics, hes, hread, (hlines (by omega)).1, hlengths⟩
  · obtain ⟨es, hes, hcounts⟩ := map_eq_ok_iff.mp hcounts
    obtain ⟨hlength, hcurves⟩ := Prod.mk.inj hcounts
    obtain ⟨graphics, hread, hspans, -⟩ := (path_draws_every_element fromCorner hcurved hes).2
      (List.ne_nil_of_length_eq_add_one hlength)
    exact ⟨es, graphics, hes, hread, hspans (by omega), hlength⟩

end SymbolPlacement

end EdaParts
