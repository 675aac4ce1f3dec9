import EdaParts.Path.Element
import EdaParts.Proofs.Binary64.Order
import EdaParts.Proofs.Record.Reading
import Mathlib.Data.List.Chain

/-!
# Connected paths

The elements of a path follow each other without a jump: a path begins with a move, whatever else is drawn begins
where the element before it ends, and a closing ends at the last move. The one command that leaves no element is an
arc between points that compare equal; where such arcs have been left out the neighbours meet up to that comparison.

* `Step`, `Pen.steps` : the commands of a path, each with the element that it draws;
* `Connected` : how elements follow each other;
* `Pen.ends_of_draw` and the lemmas after it : what one command does; `Pen.isChain_steps`, `Pen.last_of_close` : what
  all of them do;
* `Element.connected_of_ofPath` : paths are connected.
-/

namespace EdaParts

/-- Points that compare equal to one point compare equal. -/
theorem Point.same_trans {p q r : Point} (hpq : p.same q = true) (hqr : q.same r = true) : p.same r = true := by
  have htrans {x y z : Float} (hxy : (x == y) = true) (hyz : (y == z) = true) : (x == z) = true := by
    obtain ⟨a, hx, hy⟩ := Binary64.beq_iff.mp hxy
    obtain ⟨b, hy', hz⟩ := Binary64.beq_iff.mp hyz
    obtain rfl : a = b := Option.some.inj (hy.symm.trans hy')
    exact Binary64.beq_iff.mpr ⟨a, hx, hz⟩
  simp only [same, Bool.and_eq_true] at hpq hqr ⊢
  exact ⟨htrans hpq.1 hqr.1, htrans hpq.2 hqr.2⟩

/-- An arc has the ends that it is drawn from. -/
theorem Arc.ends_of_ofEnds? {p q : Point} {rx ry rotation : Float} {large sweep : Bool} {a : Arc}
    (h : ofEnds? p q rx ry rotation large sweep = some a) : a.start = p ∧ a.stop = q := by
  unfold ofEnds? at h
  split at h
  · nomatch h
  · obtain rfl := Option.some.inj h
    exact ⟨rfl, rfl⟩

/-! ## Steps of a path -/

/-- One command of a path: where the pen is before it, the element that it draws, and where the pen is after it. -/
structure Step where
  start : Point
  command : Segment
  drawn : Option Element
  stop : Point

namespace Step

/-- An arc between points that compare equal. -/
def IsEmptyArc (a : Step) : Prop :=
  (∃ relative rx ry rotation large sweep p, a.command = .arc relative rx ry rotation large sweep p) ∧
    a.start.same a.stop = true

/-- The command draws an element from where the pen is to where it goes, moves apart; or it is an arc that goes
nowhere. -/
structure Sound (a : Step) : Prop where
  start_eq : ∀ e, a.drawn = some e → e.isMove = false → e.start = a.start
  stop_eq : ∀ e, a.drawn = some e → e.stop = a.stop
  dropped : a.drawn = none → a.IsEmptyArc

/-- Two points without a command between them are the same; with commands between them they compare equal. -/
def Joined (gap : List Step) (p q : Point) : Prop :=
  (gap = [] → p = q) ∧ (gap ≠ [] → p.same q = true)

end Step

/-- The point of a move. -/
def Element.move? : Element → Option Point
  | move p => some p
  | _ => none

/-- The point of the last move. -/
def Element.lastMove? (es : List Element) : Option Point :=
  (es.filterMap move?).getLast?

/-- The elements are those of the commands, arcs that go nowhere left out. They begin with a move, each of the others
begins where the one before it ends, and each closing ends at the last move before it. -/
structure Connected (segments : List Segment) (steps : List Step) (es : List Element) : Prop where
  commands : steps.map Step.command = segments
  elements : es = steps.filterMap Step.drawn
  dropped : ∀ a ∈ steps, a.drawn = none → a.IsEmptyArc
  first : ∃ p rest, es = .move p :: rest
  joined : ∀ front last e back, es = front ++ last :: e :: back → e.isMove = false →
    ∃ before a gap b after, steps = before ++ a :: (gap ++ b :: after) ∧ before.filterMap Step.drawn = front ∧
      a.drawn = some last ∧ (∀ s ∈ gap, s.drawn = none) ∧ b.drawn = some e ∧ Step.Joined gap last.stop e.start
  closed : ∀ front p q back, es = front ++ .close p q :: back → Element.lastMove? front = some q

namespace Pen

/-- The commands one by one. -/
def steps (pen : Pen) : List Segment → List Step
  | [] => []
  | s :: ss => ⟨pen.position, s, (pen.draw s).2, (pen.draw s).1.position⟩ :: (pen.draw s).1.steps ss

variable {pen : Pen} {s : Segment} {e : Element}

/-! ## One command -/

/-- What a command draws begins where the pen is, a move apart, and ends where the command leaves it. -/
theorem ends_of_draw (h : (pen.draw s).2 = some e) :
    (e.isMove = false → e.start = pen.position) ∧ e.stop = (pen.draw s).1.position := by
  cases s with
  | move relative p =>
    obtain rfl := Option.some.inj h
    exact ⟨nofun, rfl⟩
  | arc relative rx ry rotation large sweep p =>
    dsimp only [draw] at h
    split at h
    · next a harc =>
      obtain rfl := Option.some.inj h
      obtain ⟨hstart, hstop⟩ := Arc.ends_of_ofEnds? harc
      exact ⟨fun _ => hstart, hstop⟩
    · split at h
      · nomatch h
      · obtain rfl := Option.some.inj h
        exact ⟨fun _ => rfl, rfl⟩
  | _ =>
    obtain rfl := Option.some.inj h
    exact ⟨fun _ => rfl, rfl⟩

theorem same_of_draw (h : (pen.draw s).2 = none) :
    (∃ relative rx ry rotation large sweep p, s = .arc relative rx ry rotation large sweep p) ∧
      pen.position.same (pen.draw s).1.position = true := by
  cases s with
  | arc relative rx ry rotation large sweep p =>
    refine ⟨⟨_, _, _, _, _, _, _, rfl⟩, ?_⟩
    dsimp only [draw] at h
    split at h
    · nomatch h
    · split at h
      · next hsame => exact hsame
      · nomatch h
  | _ => nomatch h

/-- Moves alone begin a subpath. -/
theorem origin_draw (pen : Pen) (s : Segment) :
    (pen.draw s).1.origin = ((pen.draw s).2.bind Element.move?).getD pen.origin := by
  cases s with
  | arc relative rx ry rotation large sweep p =>
    dsimp only [draw]
    split
    · rfl
    · split <;> rfl
  | _ => rfl

/-- A closing ends where the subpath begins. -/
theorem origin_of_close {p q : Point} (h : (pen.draw s).2 = some (.close p q)) : q = pen.origin := by
  cases s with
  | arc relative rx ry rotation large sweep r =>
    dsimp only [draw] at h
    split at h
    · nomatch h
    · split at h <;> nomatch h
  | close =>
    obtain ⟨-, rfl⟩ := Element.close.inj (Option.some.inj h)
    rfl
  | _ => nomatch h

theorem sound_draw (pen : Pen) (s : Segment) : Step.Sound ⟨pen.position, s, (pen.draw s).2, (pen.draw s).1.position⟩ :=
  ⟨fun _ h => (ends_of_draw h).1, fun _ h => (ends_of_draw h).2, same_of_draw⟩

/-! ## All commands -/

theorem command_steps (pen : Pen) (ss : List Segment) : (pen.steps ss).map Step.command = ss := by
  induction ss generalizing pen with
  | nil => rfl
  | cons s ss ih => rw [steps, List.map_cons, ih]

theorem drawAll_eq_filterMap (pen : Pen) (ss : List Segment) :
    pen.drawAll ss = (pen.steps ss).filterMap Step.drawn := by
  induction ss generalizing pen with
  | nil => rfl
  | cons s ss ih =>
    rw [drawAll, steps, List.filterMap_cons, ← ih]
    rcases pen.draw s with ⟨next, _ | e⟩ <;> rfl

theorem sound_steps {ss : List Segment} {a : Step} (h : a ∈ pen.steps ss) : a.Sound := by
  induction ss generalizing pen with
  | nil => nomatch h
  | cons s ss ih =>
    rcases List.mem_cons.mp h with rfl | h
    · exact sound_draw pen s
    · exact ih h

/-- Each command begins where the one before it has left the pen. -/
theorem isChain_steps (pen : Pen) (ss : List Segment) : (pen.steps ss).IsChain fun a b => a.stop = b.start := by
  induction ss generalizing pen with
  | nil => exact .nil
  | cons s ss ih =>
    cases ss with
    | nil => exact .singleton _
    | cons t ts => exact .cons_cons rfl (ih _)

theorem lastMove?_append_singleton (done : List Element) (e : Element) :
    Element.lastMove? (done ++ [e]) = e.move?.or (Element.lastMove? done) := by
  unfold Element.lastMove?
  rw [List.filterMap_append, List.getLast?_append, List.filterMap_cons]
  cases e.move? <;> rfl

/-- **A closing ends at the last move** before it, among the elements already drawn and those of the commands. -/
theorem last_of_close {ss : List Segment} {done front back : List Element} {p q : Point}
    (hdone : Element.lastMove? done = some pen.origin) (h : pen.drawAll ss = front ++ .close p q :: back) :
    Element.lastMove? (done ++ front) = some q := by
  induction ss generalizing pen done front with
  | nil => cases front <;> nomatch h
  | cons s ss ih =>
    have horigin := origin_draw pen s
    have hclose {p q : Point} : (pen.draw s).2 = some (.close p q) → q = pen.origin := origin_of_close
    rw [drawAll] at h
    generalize pen.draw s = drawn at h horigin hclose
    obtain ⟨next, _ | e⟩ := drawn
    · exact ih (hdone.trans (congrArg some horigin.symm)) h
    · cases front with
      | nil =>
        obtain ⟨rfl, -⟩ := List.cons.inj h
        rw [List.append_nil, hdone, hclose rfl]
      | cons f front =>
        obtain ⟨rfl, htail : next.drawAll ss = _⟩ := List.cons.inj h
        have hnext : Element.lastMove? (done ++ [e]) = some next.origin := by
          rw [lastMove?_append_singleton, hdone, horigin]
          show _ = some ((Element.move? e).getD pen.origin)
          cases e.move? <;> rfl
        rw [← List.singleton_append, ← List.append_assoc]
        exact ih hnext htail

end Pen

/-! ## Paths -/

/-- The first command of a path is a move, absolute or relative by its letter. -/
theorem Segment.letter_of_read {text : String} {s : Segment} {ss : List Segment} (h : read text = .ok (s :: ss)) :
    ∃ letter rest p, skipSpaces text.toList = letter :: rest ∧ letter.toLower = 'm' ∧ s = .move letter.isLower p := by
  unfold read at h
  rw [mapError_eq_ok_iff] at h
  generalize text.toList.length = rounds at h
  cases rounds with
  | zero => nomatch h
  | succ rounds =>
    rw [readFrom] at h
    dsimp only at h
    split at h
    · nomatch h
    · obtain ⟨⟨letter, rest⟩, hcommand, h⟩ := bind_eq_ok_iff.mp h
      obtain ⟨⟨s', rest'⟩, harguments, h⟩ := bind_eq_ok_iff.mp h
      obtain ⟨ss', -, h⟩ := bind_eq_ok_iff.mp h
      obtain ⟨rfl, -⟩ := List.cons.inj (Except.ok.inj h)
      have hletter : skipSpaces text.toList = letter :: rest ∧ letter.toLower = 'm' := by
        unfold command at hcommand
        split at hcommand
        · nomatch hcommand
        · next hspaces _ =>
          split at hcommand
          · next hm =>
            obtain ⟨rfl, rfl⟩ := Prod.mk.inj (Except.ok.inj hcommand)
            exact ⟨hspaces, hm⟩
          · nomatch hcommand
        · next heq => nomatch heq
      rw [hletter.2] at harguments
      obtain ⟨⟨p, cs⟩, -, h⟩ := bind_eq_ok_iff.mp harguments
      obtain ⟨rfl, -⟩ := Prod.mk.inj (Except.ok.inj h)
      exact ⟨letter, rest, p, hletter.1, hletter.2, rfl⟩

/-- A path begins with a move. -/
theorem Segment.move_of_read {text : String} {s : Segment} {ss : List Segment} (h : read text = .ok (s :: ss)) :
    ∃ relative p, s = .move relative p := by
  obtain ⟨letter, -, p, -, -, hs⟩ := letter_of_read h
  exact ⟨letter.isLower, p, hs⟩

theorem Step.joined_of_isChain {a b : Step} {gap after : List Step}
    (hchain : (a :: (gap ++ b :: after)).IsChain fun a b => a.stop = b.start)
    (hgap : ∀ s ∈ gap, s.start.same s.stop = true) : Joined gap a.stop b.start := by
  induction gap generalizing a with
  | nil => exact ⟨fun _ => (List.isChain_cons_cons.mp hchain).1, fun h => absurd rfl h⟩
  | cons g gap ih =>
    obtain ⟨hg, hgap⟩ := List.forall_mem_cons.mp hgap
    obtain ⟨hstart, hchain⟩ := List.isChain_cons_cons.mp hchain
    obtain ⟨hnear, hfar⟩ := ih hchain hgap
    refine ⟨nofun, fun _ => ?_⟩
    rw [hstart]
    by_cases hnil : gap = []
    · rw [← hnear hnil]
      exact hg
    · exact Point.same_trans hg (hfar hnil)

theorem Connected.of_draws {segments : List Segment} {s : Segment} {relative : Bool} {p : Point}
    (hmove : s = .move relative p) :
    Connected (s :: segments) (Pen.initial.steps (s :: segments)) (Pen.initial.drawAll (s :: segments)) where
  commands := Pen.command_steps _ _
  elements := Pen.drawAll_eq_filterMap _ _
  dropped _ ha hnone := (Pen.sound_steps ha).dropped hnone
  first := by
    subst hmove
    exact ⟨_, _, rfl⟩
  joined front last e back hes hmove := by
    rw [Pen.drawAll_eq_filterMap] at hes
    obtain ⟨before, rest, hsteps, rfl, hrest⟩ := List.filterMap_eq_append_iff.mp hes
    obtain ⟨skipped, a, rest, rfl, hskipped, ha, hrest⟩ := List.filterMap_eq_cons_iff.mp hrest
    obtain ⟨gap, b, after, rfl, hgap, hb, -⟩ := List.filterMap_eq_cons_iff.mp hrest
    rw [← List.append_assoc] at hsteps
    have hsound {t : Step} (ht : t ∈ a :: (gap ++ b :: after)) : t.Sound :=
      Pen.sound_steps (hsteps ▸ List.mem_append_right _ ht)
    have hchain : (a :: (gap ++ b :: after)).IsChain fun a b => a.stop = b.start :=
      (hsteps ▸ Pen.isChain_steps _ _ : List.IsChain _ _).right_of_append
    refine ⟨before ++ skipped, a, gap, b, after, hsteps, ?_, ha, hgap, hb, ?_⟩
    · rw [List.filterMap_append, List.filterMap_eq_nil_iff.mpr hskipped, List.append_nil]
    · have hab := Step.joined_of_isChain hchain fun t ht =>
        ((hsound (List.mem_cons_of_mem _ (List.mem_append_left _ ht))).dropped (hgap t ht)).2
      rwa [(hsound List.mem_cons_self).stop_eq _ ha,
        (hsound (List.mem_cons_of_mem _ (List.mem_append_right _ List.mem_cons_self))).start_eq _ hb hmove]
  closed front p q back hes := by
    subst hmove
    cases front with
    | nil => nomatch hes
    | cons f front =>
      obtain ⟨rfl, hrest⟩ := List.cons.inj hes
      have hdone (p : Point) : Element.lastMove? [.move p] = some p := rfl
      exact Pen.last_of_close (hdone _) hrest

/-- **Paths are connected.** The elements of a path are those of its commands but for arcs that go nowhere. They begin
with a move; each other element begins at the end of the one before it, or at a point that compares equal to it where
such arcs have been left out; and each closing ends at the last move before it. -/
theorem Element.connected_of_ofPath {text : String} {es : List Element} (h : ofPath text = .ok es) :
    ∃ segments, Segment.read text = .ok segments ∧ Connected segments (Pen.initial.steps segments) es := by
  obtain ⟨segments, hread, h⟩ := bind_eq_ok_iff.mp h
  dsimp only at h
  split at h
  · nomatch h
  · next hempty =>
    obtain rfl := Except.ok.inj h
    cases segments with
    | nil => exact absurd rfl hempty
    | cons s segments =>
      obtain ⟨relative, p, hmove⟩ := Segment.move_of_read hread
      exact ⟨_, hread, .of_draws hmove⟩

/-- A path with an arc that goes nowhere between two lines, a second closing and a second move. -/
theorem Element.connected_of_ofPath_closedTwice :
    ∃ es segments, ofPath "M 1 1 h 5 a 3 3 0 0 1 0 0 v 5 z l 2 2 z m 1 0 h -1" = .ok es ∧ es.length = 8 ∧
      Segment.read "M 1 1 h 5 a 3 3 0 0 1 0 0 v 5 z l 2 2 z m 1 0 h -1" = .ok segments ∧
      Connected segments (Pen.initial.steps segments) es := by
  have hlength : (ofPath "M 1 1 h 5 a 3 3 0 0 1 0 0 v 5 z l 2 2 z m 1 0 h -1").map List.length = .ok 8 := by
    decide +kernel
  obtain ⟨es, hes, hlength⟩ := map_eq_ok_iff.mp hlength
  obtain ⟨segments, hread, hconnected⟩ := connected_of_ofPath hes
  exact ⟨es, segments, hes, hlength, hread, hconnected⟩

end EdaParts
