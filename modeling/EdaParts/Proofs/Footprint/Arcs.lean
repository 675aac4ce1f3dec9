import EdaParts.Proofs.Footprint.Placements
import EdaParts.Proofs.Path.Connected
import EdaParts.Proofs.Record.Tokens

/-!
# Where the path of an arc stands

An arc record has its path behind the name of a net or, if there is none, in its place, since blank fields are dropped.
The path is told by its first letter. So it is found in both places if it begins with an absolute move and the net does
not look as if it did.

* `Segment.beginsMove_iff` : the first letter of a path, and its first command;
* `Placement.yields_arc_iff` : what an arc record places;
* `Placement.arc_found_iff` : when an arc is found with a net and without.
-/

namespace EdaParts

open Reading

/-! ## Paths -/

/-- The first letter, blanks before it left out, is that of an absolute move. -/
def BeginsMove (s : String) : Prop :=
  (Text.trimStart s.toList).head? = some 'M'

instance (s : String) : Decidable (BeginsMove s) := inferInstanceAs (Decidable (_ = _))

/-- Two letters are those of moves. -/
theorem letter_of_toLower {c : Char} (h : c.toLower = 'm') : c = 'm' ∨ c = 'M' := by
  unfold Char.toLower at h
  split at h
  · have hval : c.val = 'm'.val - ('a'.val - 'A'.val) := by
      rw [← h]
      simp
    exact .inr (Char.ext hval)
  · exact .inl h

/-- Blanks of paths are blanks. -/
theorem trimStart_of_skipSpaces {cs rest : List Char} {c : Char} (h : Segment.skipSpaces cs = c :: rest)
    (hc : Text.isBlank c = false) : Text.trimStart cs = c :: rest := by
  induction cs with
  | nil => nomatch h
  | cons d cs ih =>
    rw [Segment.skipSpaces, List.dropWhile_cons] at h
    rw [Text.trimStart, List.dropWhile_cons]
    split at h
    · next hd =>
      have hblank : Text.isBlank d = true := by
        simp only [Segment.isSpace, Bool.or_eq_true, decide_eq_true_iff] at hd
        rcases hd with ((rfl | rfl) | rfl) | rfl <;> decide
      rw [if_pos hblank]
      exact ih h
    · obtain ⟨rfl, rfl⟩ := List.cons.inj h
      rw [if_neg (Bool.eq_false_iff.mp hc)]

/-- **The first letter of a path** is that of its first command. -/
theorem Segment.beginsMove_iff {text : String} {s : Segment} {ss : List Segment} (h : read text = .ok (s :: ss)) :
    BeginsMove text ↔ ∃ p, s = .move false p := by
  obtain ⟨letter, rest, p, hspaces, hletter, rfl⟩ := letter_of_read h
  obtain rfl | rfl := letter_of_toLower hletter
  · rw [BeginsMove, trimStart_of_skipSpaces hspaces (by decide)]
    simp
  · rw [BeginsMove, trimStart_of_skipSpaces hspaces (by decide)]
    simp

/-- A path begins with an absolute move if its first letter is that of one. -/
theorem Element.beginsMove_iff {path : String} {es : List Element} (h : ofPath path = .ok es) :
    BeginsMove path ↔ ∃ p ss, Segment.read path = .ok (.move false p :: ss) := by
  obtain ⟨segments, hread, h⟩ := bind_eq_ok_iff.mp h
  cases segments with
  | nil => nomatch h
  | cons s ss =>
    rw [Segment.beginsMove_iff hread, hread]
    simp [Except.ok.injEq]

/-! ## Records -/

namespace Placement

open Record (separator toLine)

variable {c : FootprintContext} {p : Placement} {line width layer net path : String}

/-- The path is the first of two fields that begins like one. -/
theorem arcPath_eq_ok_iff {f : Fields} {q : String} :
    arcPath f = .ok q ↔ ([2, 3].filterMap f.get?).find? (BeginsMove ·) = some q := by
  have hlooks : (fun s : String => (Text.trimStart s.toList).head? == some 'M') = fun s => decide (BeginsMove s) :=
    funext fun s => Bool.beq_eq_decide_eq _ _
  unfold arcPath
  dsimp only
  rw [hlooks]
  cases ([2, 3].filterMap f.get?).find? (BeginsMove ·) <;> simp

theorem filterMap_get? (kind : String) (fields : List String) :
    [2, 3].filterMap (Fields.get? ⟨kind, fields⟩) = (fields.drop 2).take 2 := by
  rcases fields with _ | ⟨_, _ | ⟨_, _ | ⟨_, _ | ⟨_, _⟩⟩⟩⟩ <;> rfl

/-- Without a third field there is no path. -/
theorem not_read_arc {fields : List String} (hline : Record.ofLine? line = some ⟨"ARC", fields⟩)
    (hlength : fields.length ≤ 2) : read c line ≠ .ok p := by
  rw [value_of_record .arc hline]
  intro h
  obtain ⟨-, path, -, -, -, -, hpath, -, -⟩ := yields_arc_iff.mp h
  rw [arcPath_eq_ok_iff, filterMap_get?, List.drop_eq_nil_of_le hlength] at hpath
  cases hpath

theorem read_arc_iff {fields : List String} (hline : Record.ofLine? line = some ⟨"ARC", width :: layer :: fields⟩) :
    read c line = .ok p ↔ ∃ w q e a es, finiteNumber? width.toList = some w ∧
      (fields.take 2).find? (BeginsMove ·) = some q ∧ Element.ofPath q = .ok (e :: .arc a :: es) ∧
      p = ofArc c w ((Layer.ofCode? layer).getD .fallback) a := by
  rw [value_of_record .arc hline]
  refine yields_arc_iff.trans ?_
  simp only [arcPath_eq_ok_iff, filterMap_get?]
  show (∃ w q e a es, Fields.numberIn _ 0 width.toList = .ok w ∧ _ ∧ _ ∧ _) ↔ _
  simp only [Fields.numberIn_eq_ok_iff]
  rfl

theorem find?_bare {q : String} : [path].find? (BeginsMove ·) = some q ↔ BeginsMove path ∧ q = path := by
  by_cases h : BeginsMove path <;> simp [h, eq_comm]

theorem find?_net {q : String} : [net, path].find? (BeginsMove ·) = some q ↔
    BeginsMove net ∧ q = net ∨ ¬ BeginsMove net ∧ BeginsMove path ∧ q = path := by
  by_cases hnet : BeginsMove net
  · simp [hnet, eq_comm]
  · rw [List.find?_cons_of_neg (by simpa using hnet), find?_bare]
    simp [hnet]

section
variable {e : Element} {a : Arc} {es : List Element} (hpath : Element.ofPath path = .ok (e :: .arc a :: es))
include hpath

/-- An arc whose path stands behind its layer. -/
theorem read_bareArc_iff (hline : Record.ofLine? line = some ⟨"ARC", [width, layer, path]⟩) :
    read c line = .ok p ↔ BeginsMove path ∧
      ∃ w, finiteNumber? width.toList = some w ∧ p = ofArc c w ((Layer.ofCode? layer).getD .fallback) a := by
  rw [read_arc_iff hline]
  show (∃ w q e a es, _ ∧ [path].find? (BeginsMove ·) = some q ∧ _ ∧ _) ↔ _
  simp only [find?_bare]
  constructor
  · rintro ⟨w, q, e', a', es', hw, ⟨hbegins, rfl⟩, hpath', rfl⟩
    obtain ⟨-, harcs⟩ := List.cons.inj (Except.ok.inj (hpath.symm.trans hpath'))
    obtain rfl := Element.arc.inj (List.cons.inj harcs).1
    exact ⟨hbegins, w, hw, rfl⟩
  · rintro ⟨hbegins, w, hw, rfl⟩
    exact ⟨w, path, e, a, es, hw, ⟨hbegins, rfl⟩, hpath, rfl⟩

/-- An arc whose path stands behind the name of a net. -/
theorem read_netArc_iff (hline : Record.ofLine? line = some ⟨"ARC", [width, layer, net, path]⟩)
    (hnet : ∀ e a es, Element.ofPath net ≠ .ok (e :: .arc a :: es)) :
    read c line = .ok p ↔ ¬ BeginsMove net ∧ BeginsMove path ∧
      ∃ w, finiteNumber? width.toList = some w ∧ p = ofArc c w ((Layer.ofCode? layer).getD .fallback) a := by
  rw [read_arc_iff hline]
  show (∃ w q e a es, _ ∧ [net, path].find? (BeginsMove ·) = some q ∧ _ ∧ _) ↔ _
  simp only [find?_net]
  constructor
  · rintro ⟨w, q, e', a', es', hw, ⟨-, rfl⟩ | ⟨hother, hbegins, rfl⟩, hpath', rfl⟩
    · exact absurd hpath' (hnet e' a' es')
    · obtain ⟨-, harcs⟩ := List.cons.inj (Except.ok.inj (hpath.symm.trans hpath'))
      obtain rfl := Element.arc.inj (List.cons.inj harcs).1
      exact ⟨hother, hbegins, w, hw, rfl⟩
  · rintro ⟨hother, hbegins, w, hw, rfl⟩
    exact ⟨w, path, e, a, es, hw, .inr ⟨hother, hbegins, rfl⟩, hpath, rfl⟩

end

/-- **Where an arc is found.** With the name of a net before its path and without, a record places the same arc just if
its width is a finite number, its layer is not left out, its path begins with an absolute move, and the net does not
look like a path. -/
theorem arc_found_iff (c : FootprintContext) {width layer net path : String} {e : Element} {a : Arc} {es : List Element}
    (hfree : ∀ s ∈ [width, layer, net, path], separator ∉ s.toList)
    (hpath : Element.ofPath path = .ok (e :: .arc a :: es))
    (hnet : ∀ e a es, Element.ofPath net ≠ .ok (e :: .arc a :: es)) (p : Placement) :
    (read c (toLine ⟨"ARC", [width, layer, net, path]⟩) = .ok p ∧
      read c (toLine ⟨"ARC", [width, layer, "", path]⟩) = .ok p) ↔
    (∃ w, finiteNumber? width.toList = some w ∧ p = ofArc c w ((Layer.ofCode? layer).getD .fallback) a) ∧
      layer ≠ "" ∧ (∃ q ss, Segment.read path = .ok (.move false q :: ss)) ∧ ¬ BeginsMove net := by
  have hrecord (between : String) (hbetween : separator ∉ between.toList) :
      Record.ofLine? (toLine ⟨"ARC", [width, layer, between, path]⟩) =
        some ⟨"ARC", [width, layer, between, path].filter (!·.isEmpty)⟩ := by
    simp only [List.forall_mem_cons] at hfree
    refine Record.ofLine?_toLine (by decide) ?_
    simp only [List.forall_mem_cons]
    exact ⟨by decide, hfree.1, hfree.2.1, hbetween, hfree.2.2.2⟩
  have hne : path ≠ "" := by
    rintro rfl
    have hempty : Element.ofPath "" = .error .empty := rfl
    rw [hempty] at hpath
    cases hpath
  rw [← Element.beginsMove_iff hpath]
  by_cases hleft : width = "" ∨ layer = ""
  · -- Without its width or its layer the bare record has its path too far in front.
    have hlength : ([width, layer, "", path].filter (!·.isEmpty)).length ≤ 2 := by
      rcases hleft with rfl | rfl
      · by_cases h : layer = "" <;> simp [h, hne]
      · by_cases h : width = "" <;> simp [h, hne]
    refine iff_of_false (fun h => not_read_arc (hrecord "" (by decide)) hlength h.2) ?_
    rintro ⟨⟨w, hw, -⟩, hlayer, -⟩
    rcases hleft with rfl | rfl
    · cases hw
    · exact hlayer rfl
  · rw [not_or] at hleft
    have hbare := hrecord "" (by decide)
    rw [show [width, layer, "", path].filter (!·.isEmpty) = [width, layer, path] by simp [hleft, hne]] at hbare
    rw [read_bareArc_iff hpath hbare]
    by_cases hblank : net = ""
    · subst hblank
      have hother : ¬ BeginsMove "" := by decide
      rw [read_bareArc_iff hpath hbare]
      exact ⟨fun h => ⟨h.1.2, hleft.2, h.1.1, hother⟩, fun h => ⟨⟨h.2.2.1, h.1⟩, h.2.2.1, h.1⟩⟩
    · have hlong := hrecord net (hfree net (by simp))
      rw [show [width, layer, net, path].filter (!·.isEmpty) = [width, layer, net, path] by simp [hleft, hne, hblank]]
        at hlong
      rw [read_netArc_iff hpath hlong hnet]
      exact ⟨fun h => ⟨h.2.2, hleft.2, h.2.1, h.1.1⟩, fun h => ⟨⟨h.2.2.2, h.2.2.1, h.1⟩, h.2.2.1, h.1⟩⟩

/-- The second element of a path is an arc. -/
def isArcPath (path : String) : Bool :=
  match Element.ofPath path with
  | .ok (_ :: .arc _ :: _) => true
  | _ => false

theorem exists_of_isArcPath (h : isArcPath path = true) : ∃ e a es, Element.ofPath path = .ok (e :: .arc a :: es) := by
  unfold isArcPath at h
  split at h
  · next e a es hpath => exact ⟨e, a, es, hpath⟩
  · cases h

theorem not_of_isArcPath (h : isArcPath net = false) (e : Element) (a : Arc) (es : List Element) :
    Element.ofPath net ≠ .ok (e :: .arc a :: es) := by
  intro hpath
  rw [isArcPath, hpath] at h
  cases h

/-- The arc between two points of a board, with the ground net and without. -/
theorem arc_found_iff_ground : ∃ p, read ⟨.board .zero, none⟩ "ARC~1~3~GND~M 0 0 A 10 10 0 0 1 20 0" = .ok p ∧
    read ⟨.board .zero, none⟩ "ARC~1~3~~M 0 0 A 10 10 0 0 1 20 0" = .ok p := by
  obtain ⟨e, a, es, hpath⟩ := exists_of_isArcPath (by decide +kernel : isArcPath "M 0 0 A 10 10 0 0 1 20 0" = true)
  obtain ⟨w, hw⟩ : ∃ w, finiteNumber? "1".toList = some w := Option.isSome_iff_exists.mp (by decide +kernel)
  have hnet : toLine ⟨"ARC", ["1", "3", "GND", "M 0 0 A 10 10 0 0 1 20 0"]⟩ =
      "ARC~1~3~GND~M 0 0 A 10 10 0 0 1 20 0" := by decide
  have hbare : toLine ⟨"ARC", ["1", "3", "", "M 0 0 A 10 10 0 0 1 20 0"]⟩ =
      "ARC~1~3~~M 0 0 A 10 10 0 0 1 20 0" := by decide
  have habsolute := (Element.beginsMove_iff hpath).mp (by decide)
  rw [← hnet, ← hbare]
  exact ⟨_, (arc_found_iff ⟨.board .zero, none⟩ (by decide) hpath (not_of_isArcPath (by decide +kernel)) _).mpr
    ⟨⟨w, hw, rfl⟩, by decide, habsolute, by decide⟩⟩

/-- A net whose name begins with the letter of moves hides the path behind it, and a path that begins with a relative
move is not found at all. -/
theorem arc_missed_miso :
    (isArcPath "M 0 0 A 10 10 0 0 1 20 0" = true ∧ isArcPath "MISO" = false ∧
      (read ⟨.board .zero, none⟩ "ARC~1~3~~M 0 0 A 10 10 0 0 1 20 0").isOk = true ∧
      (read ⟨.board .zero, none⟩ "ARC~1~3~MISO~M 0 0 A 10 10 0 0 1 20 0").isOk = false) ∧
    isArcPath "m 0 0 a 10 10 0 0 1 20 0" = true ∧
      (read ⟨.board .zero, none⟩ "ARC~1~3~~m 0 0 a 10 10 0 0 1 20 0").isOk = false := by
  decide +kernel

end Placement

end EdaParts
