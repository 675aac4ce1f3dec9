import EdaParts.Proofs.Modern.Expr

/-!
# What a text says as an expression

Other programs lay expressions out in other ways. The reader here goes through a text by character
and takes the words, quoted texts and lists of it, whatever stands between them.

* `Datum` : an expression without its layout;
* `Reader.run` : what has been read of a text, and in which lists the reader stands;
* `Reader.run_within` : a text is read within lists as it is read alone;
* `Reads` : a text reads as some items, `Reads.opened` : so does what stands in its parentheses;
* `Reads.origin` : a list that is read stands somewhere in the text.
-/

namespace EdaParts.Modern

/-- A character that says nothing between expressions. -/
def isGap (c : Char) : Bool :=
  c ∈ [' ', '\t', '\r', '\n']

theorem isGap_of_marks {c : Char} (hopen : c ≠ '(') (hclose : c ≠ ')') (hq : c ≠ '"')
    (ha : ¬ isAtomChar c = true) : isGap c = true := by
  unfold isAtomChar at ha
  unfold isGap
  simp only [decide_eq_true_eq, List.mem_cons, List.not_mem_nil, or_false, not_not] at ha ⊢
  rcases ha with h | h | h | h
  · exact absurd h hopen
  · exact absurd h hclose
  · exact absurd h hq
  · exact h

/-- An expression without its layout. -/
inductive Datum where
  | word (chars : List Char)
  | text (chars : List Char)
  | list (items : List Datum)
  deriving Repr

/-- What the reader is amid. -/
inductive ReaderMode where
  | between
  | word (front : List Char)
  | text (front : List Char)
  | escape (front : List Char)
  deriving Repr

/-- The items read of the list at hand, and those of the lists around it, innermost first. -/
structure Reader where
  mode : ReaderMode
  items : List Datum
  outer : List (List Datum)
  deriving Repr

namespace Reader

def start : Reader := ⟨.between, [], []⟩

/-- The reader once the word at hand has ended. -/
def settled (r : Reader) : Reader :=
  match r.mode with
  | .word front => ⟨.between, r.items ++ [.word front], r.outer⟩
  | _ => r

/-- A character that begins or ends something, where no word is at hand. A parenthesis that closes no
list cannot be read. -/
def mark (r : Reader) (c : Char) : Option Reader :=
  if c = '(' then some ⟨.between, [], r.items :: r.outer⟩
  else if c = ')' then
    match r.outer with
    | [] => none
    | items :: outer => some ⟨.between, items ++ [.list r.items], outer⟩
  else if c = '"' then some { r with mode := .text [] }
  else if isAtomChar c then some { r with mode := .word [c] }
  else some r

/-- The next character. In a text, a backslash stands for the character after it. -/
def step (r : Reader) (c : Char) : Option Reader :=
  match r.mode with
  | .between => r.mark c
  | .word front =>
    if isAtomChar c then some { r with mode := .word (front ++ [c]) } else r.settled.mark c
  | .text front =>
    if c = '"' then some ⟨.between, r.items ++ [.text front], r.outer⟩
    else if c = '\\' then some { r with mode := .escape front }
    else some { r with mode := .text (front ++ [c]) }
  | .escape front => some { r with mode := .text (front ++ [c]) }

/-- The reader after a text. -/
def run (r : Reader) (cs : List Char) : Option Reader :=
  cs.foldlM step r

end Reader

/-- A text reads as some items. -/
def Reads (cs : List Char) (ds : List Datum) : Prop :=
  (Reader.start.run cs).map Reader.settled = some ⟨.between, ds, []⟩

namespace Reader

variable {r r' : Reader} {c : Char} {xs ys : List Char} {ds items : List Datum}
  {outer around : List (List Datum)}

@[simp] theorem run_nil (r : Reader) : r.run [] = some r := rfl

@[simp] theorem run_cons (r : Reader) (c : Char) (cs : List Char) :
    r.run (c :: cs) = (r.step c).bind (·.run cs) := rfl

theorem run_append (r : Reader) (xs ys : List Char) :
    r.run (xs ++ ys) = (r.run xs).bind (·.run ys) := List.foldlM_append

theorem run_append_of_eq (h : r.run xs = some r') (ys : List Char) :
    r.run (xs ++ ys) = r'.run ys := by
  rw [run_append, h]
  rfl

theorem outer_settled (r : Reader) : r.settled.outer = r.outer := by
  obtain ⟨m, items, outer⟩ := r
  cases m <;> rfl

/-- A character that is no part of a word ends the word at hand. -/
theorem step_settled (hr : r.settled.mode = .between) (hc : isAtomChar c = false) :
    r.step c = r.settled.mark c := by
  obtain ⟨m, items, outer⟩ := r
  cases m with
  | between => rfl
  | word front => simp [step, hc]
  | text front => cases hr
  | escape front => cases hr

/-- Only a parenthesis that closes no list cannot be read. -/
theorem step_eq_none_iff : r.step c = none ↔ c = ')' ∧ ∃ ds, r.settled = ⟨.between, ds, []⟩ := by
  have hmark : ∀ r : Reader, r.mark c = none ↔ c = ')' ∧ r.outer = [] := by
    intro r
    unfold mark
    by_cases hopen : c = '('
    · simp [hopen]
    · by_cases hclose : c = ')'
      · cases r.outer <;> simp [hclose]
      · by_cases hq : c = '"' <;> by_cases ha : isAtomChar c = true <;> simp [hopen, hclose, hq, ha]
  obtain ⟨m, items, outer⟩ := r
  cases m with
  | between => simp [step, hmark, settled]
  | word front =>
    by_cases ha : isAtomChar c = true
    · have hc : c ≠ ')' := fun h => by rw [h] at ha; cases ha
      simp [step, ha, hc]
    · simp [step, ha, hmark, settled]
  | text front =>
    by_cases hq : c = '"' <;> by_cases hs : c = '\\' <;> simp [step, hq, hs, settled]
  | escape front => simp [step, settled]

/-! ## Reading within lists -/

/-- Lists of which the outermost one has items before, and lists around it. -/
def stack (ds : List Datum) (around : List (List Datum)) (items : List Datum) :
    List (List Datum) → List (List Datum)
  | [] => (ds ++ items) :: around
  | o :: os => items :: stack ds around o os

/-- The reader in a list that has items already, and lists around it. -/
def within (ds : List Datum) (around : List (List Datum)) (r : Reader) : Reader :=
  match r.outer with
  | [] => ⟨r.mode, ds ++ r.items, around⟩
  | o :: os => ⟨r.mode, r.items, stack ds around o os⟩

theorem settled_within : (r.within ds around).settled = r.settled.within ds around := by
  obtain ⟨m, items, outer⟩ := r
  cases m <;> cases outer <;> simp [within, settled]

theorem mark_within (h : r.mark c = some r') :
    (r.within ds around).mark c = some (r'.within ds around) := by
  obtain ⟨m, items, outer⟩ := r
  unfold mark at h ⊢
  split_ifs at h ⊢ with hopen hclose hq ha
  · cases h
    cases outer <;> rfl
  · cases outer with
    | nil => cases h
    | cons o os =>
      cases h
      cases os <;> simp [within, stack]
  · cases h
    cases outer <;> rfl
  · cases h
    cases outer <;> rfl
  · cases h
    rfl

theorem step_within (h : r.step c = some r') :
    (r.within ds around).step c = some (r'.within ds around) := by
  have hmode : (r.within ds around).mode = r.mode := by
    unfold within
    split <;> rfl
  unfold step at h ⊢
  rw [hmode]
  cases hm : r.mode with
  | between =>
    simp only [hm] at h
    exact mark_within h
  | word front =>
    simp only [hm] at h ⊢
    split_ifs at h ⊢ with ha
    · cases h
      unfold within
      cases r.outer <;> rfl
    · rw [settled_within]
      exact mark_within h
  | text front =>
    simp only [hm] at h ⊢
    split_ifs at h ⊢ with hq hs <;> cases h <;> unfold within <;> cases r.outer <;> simp
  | escape front =>
    simp only [hm] at h ⊢
    cases h
    unfold within
    cases r.outer <;> rfl

/-- **A text is read within lists** as it is read alone. -/
theorem run_within (h : r.run xs = some r') :
    (r.within ds around).run xs = some (r'.within ds around) := by
  induction xs generalizing r with
  | nil =>
    cases h
    rfl
  | cons c cs ih =>
    rw [run_cons, Option.bind_eq_some_iff] at h
    obtain ⟨q, hstep, hrun⟩ := h
    rw [run_cons, step_within hstep]
    exact ih hrun

theorem length_outer_within (ds : List Datum) (around : List (List Datum)) (r : Reader) :
    (r.within ds around).outer.length = r.outer.length + around.length := by
  have hstack : ∀ (os : List (List Datum)) (items : List Datum),
      (stack ds around items os).length = os.length + 1 + around.length := by
    intro os
    induction os with
    | nil =>
      intro items
      simp [stack, Nat.add_comm]
    | cons o os ih =>
      intro items
      rw [stack, List.length_cons, ih, List.length_cons]
      omega
  unfold within
  cases r.outer with
  | nil => simp
  | cons o os => exact hstack os o

/-- What cannot be read has a parenthesis that closes no list. -/
theorem exists_of_run_eq_none (h : r.run xs = none) :
    ∃ ys zs q ds, xs = ys ++ ')' :: zs ∧ r.run ys = some q ∧ q.settled = ⟨.between, ds, []⟩ := by
  induction xs generalizing r with
  | nil => cases h
  | cons c cs ih =>
    cases hstep : r.step c with
    | none =>
      obtain ⟨rfl, ds, hr⟩ := step_eq_none_iff.mp hstep
      exact ⟨[], cs, r, ds, rfl, rfl, hr⟩
    | some q =>
      rw [run_cons, hstep] at h
      obtain ⟨ys, zs, p, ds, rfl, hrun, hp⟩ := ih h
      exact ⟨c :: ys, zs, p, ds, rfl, by rw [run_cons, hstep]; exact hrun, hp⟩

/-- Items before a text change nothing else. -/
theorem run_within_nil (ds : List Datum) (r : Reader) (xs : List Char) :
    (r.within ds []).run xs = (r.run xs).map (within ds []) := by
  cases h : r.run xs with
  | some q => exact run_within h
  | none =>
    obtain ⟨ys, zs, q, items, rfl, hrun, hq⟩ := exists_of_run_eq_none h
    have hclose : (q.within ds []).step ')' = none :=
      step_eq_none_iff.mpr ⟨rfl, ds ++ items, by rw [settled_within, hq]; rfl⟩
    rw [run_append_of_eq (run_within hrun), run_cons, hclose]
    rfl

theorem run_list (hr : r.settled = ⟨.between, items, outer⟩) (hx : Reads xs ds) (ys : List Char) :
    r.run ('(' :: (xs ++ ')' :: ys)) = (⟨.between, items ++ [.list ds], outer⟩ : Reader).run ys := by
  obtain ⟨q, hrun, hq⟩ := Option.map_eq_some_iff.mp hx
  have hopen : r.step '(' = some (start.within [] (items :: outer)) := by
    rw [step_settled (by rw [hr]) rfl, hr]
    rfl
  have hsettled : (q.within [] (items :: outer)).settled = ⟨.between, ds, items :: outer⟩ := by
    rw [settled_within, hq]
    rfl
  have hclose : (q.within [] (items :: outer)).step ')' = some ⟨.between, items ++ [.list ds], outer⟩ := by
    rw [step_settled (by rw [hsettled]) rfl, hsettled]
    rfl
  rw [run_cons, hopen, Option.bind_some, run_append_of_eq (run_within hrun), run_cons, hclose]
  rfl

theorem exists_of_run_list (hr : r.settled = ⟨.between, items, outer⟩)
    (h : r.run ('(' :: xs) = some r') (hlen : r'.outer.length ≤ outer.length) :
    ∃ ys zs ds, xs = ys ++ ')' :: zs ∧ Reads ys ds ∧
      (⟨.between, items ++ [.list ds], outer⟩ : Reader).run zs = some r' := by
  have hopen : r.step '(' = some (start.within [] (items :: outer)) := by
    rw [step_settled (by rw [hr]) rfl, hr]
    rfl
  cases hx : start.run xs with
  | some q =>
    rw [run_cons, hopen, Option.bind_some, run_within hx] at h
    have hwithin := length_outer_within [] (items :: outer) q
    rw [Option.some.inj h, List.length_cons] at hwithin
    omega
  | none =>
    obtain ⟨ys, zs, q, ds, rfl, hrun, hq⟩ := exists_of_run_eq_none hx
    have hys : Reads ys ds := by
      unfold Reads
      rw [hrun, Option.map_some, hq]
    rw [run_list hr hys] at h
    exact ⟨ys, zs, ds, rfl, hys, h⟩

end Reader

/-! ## Texts of items -/

section
variable {c : Char} {xs ys zs inner : List Char} {as bs ds q : List Datum}

open Reader

theorem reads_iff : Reads xs ds ↔ ∃ r, start.run xs = some r ∧ r.settled = ⟨.between, ds, []⟩ :=
  Option.map_eq_some_iff

theorem Reads.unique (ha : Reads xs as) (hb : Reads xs bs) : as = bs := by
  unfold Reads at ha hb
  rw [ha] at hb
  cases hb
  rfl

theorem reads_nil : Reads [] [] := rfl

theorem run_within_start_iff :
    (((start.within as []).run xs).map settled = some ⟨.between, ds, []⟩) ↔
      ∃ bs, Reads xs bs ∧ ds = as ++ bs := by
  have hwithin : ∀ r : Reader, r.within as [] = ⟨.between, ds, []⟩ ↔
      ∃ bs, r = ⟨.between, bs, []⟩ ∧ ds = as ++ bs := by
    intro r
    obtain ⟨m, items, outer⟩ := r
    cases outer with
    | nil => simp [within, eq_comm, and_assoc]
    | cons o os =>
      have hlen := length_outer_within as [] ⟨m, items, o :: os⟩
      constructor
      · intro h
        rw [h] at hlen
        cases hlen
      · rintro ⟨bs, h, -⟩
        cases h
  have hmap : ((start.within as []).run xs).map settled =
      ((start.run xs).map settled).map (within as []) := by
    rw [run_within_nil, Option.map_map, Option.map_map]
    refine congrArg (fun f => (start.run xs).map f) (funext fun r => ?_)
    exact settled_within
  unfold Reads
  rw [hmap, Option.map_eq_some_iff]
  constructor
  · rintro ⟨r, hr, h⟩
    obtain ⟨bs, rfl, hds⟩ := (hwithin r).mp h
    exact ⟨bs, hr, hds⟩
  · rintro ⟨bs, h, hds⟩
    exact ⟨_, h, (hwithin _).mpr ⟨bs, rfl, hds⟩⟩

/-- A character that is no part of a word keeps what stands before it apart. -/
theorem reads_append_iff (hx : Reads xs as) (hc : isAtomChar c = false) :
    Reads (xs ++ c :: ys) ds ↔ ∃ bs, Reads (c :: ys) bs ∧ ds = as ++ bs := by
  obtain ⟨r, hrun, hr⟩ := reads_iff.mp hx
  have hstep : r.step c = (start.within as []).step c := by
    rw [step_settled (by rw [hr]) hc, hr]
    simp [start, within, step]
  have hrest : r.run (c :: ys) = (start.within as []).run (c :: ys) := by
    rw [run_cons, run_cons, hstep]
  rw [← run_within_start_iff, ← hrest, Reads, run_append_of_eq hrun]

theorem reads_list_iff (hinner : Reads inner q) :
    Reads ('(' :: (inner ++ ')' :: ys)) ds ↔ ∃ bs, Reads ys bs ∧ ds = .list q :: bs := by
  have hstart : start.settled = ⟨.between, [], []⟩ := rfl
  have hrun : start.run ('(' :: (inner ++ ')' :: ys)) = (start.within [.list q] []).run ys :=
    run_list hstart hinner ys
  rw [Reads, hrun, run_within_start_iff]
  rfl

/-- Between items, blanks and ends of lines say nothing. -/
theorem reads_cons_iff (hc : isGap c = true) : Reads (c :: xs) ds ↔ Reads xs ds := by
  have hstep : start.step c = some start := by
    unfold isGap at hc
    simp only [decide_eq_true_eq, List.mem_cons, List.not_mem_nil, or_false] at hc
    rcases hc with rfl | rfl | rfl | rfl <;> rfl
  rw [Reads, run_cons, hstep]
  rfl

/-- **What follows an opening parenthesis** is a list up to where it is closed, and then other items. -/
theorem Reads.opened (h : Reads (xs ++ '(' :: ys) ds) (hx : Reads xs as) :
    ∃ inner zs q bs, ys = inner ++ ')' :: zs ∧ Reads inner q ∧ Reads zs bs ∧
      ds = as ++ .list q :: bs := by
  obtain ⟨ds', hlist, rfl⟩ := (reads_append_iff hx rfl).mp h
  obtain ⟨r, hrun, hr⟩ := reads_iff.mp hlist
  have houter : r.outer = [] := by rw [← outer_settled, hr]
  have hstart : start.settled = ⟨.between, [], []⟩ := rfl
  obtain ⟨inner, zs, q, rfl, hinner, -⟩ := exists_of_run_list hstart hrun (by simp [houter])
  obtain ⟨bs, hzs, rfl⟩ := (reads_list_iff hinner).mp hlist
  exact ⟨inner, zs, q, bs, rfl, hinner, hzs, rfl⟩

/-- A text of items has no parenthesis that closes another list. -/
theorem Reads.not_closed (hx : Reads xs as) : start.run (xs ++ ')' :: ys) = none := by
  obtain ⟨r, hrun, hr⟩ := reads_iff.mp hx
  rw [run_append_of_eq hrun, run_cons, step_eq_none_iff.mpr ⟨rfl, as, hr⟩]
  rfl

/-- What can be read before a parenthesis stands before the one that closes the list. -/
theorem Reads.exists_append (hx : Reads xs as) (hy : Reads ys bs) {us vs : List Char}
    (h : xs ++ us = ys ++ ')' :: vs) : ∃ zs, ys = xs ++ zs ∧ us = zs ++ ')' :: vs := by
  rcases List.append_eq_append_iff.mp h with ⟨zs, rfl, rfl⟩ | ⟨zs, rfl, hzs⟩
  · exact ⟨zs, rfl, rfl⟩
  · cases zs with
    | nil => exact ⟨[], by simp, hzs.symm⟩
    | cons c zs =>
      obtain ⟨rfl, -⟩ := List.cons.inj hzs
      obtain ⟨r, hrun, -⟩ := reads_iff.mp hx
      rw [hy.not_closed] at hrun
      cases hrun

/-- A list is closed in one place. -/
theorem Reads.closed_unique (hx : Reads xs as) (hy : Reads ys bs) {us vs : List Char}
    (h : xs ++ ')' :: us = ys ++ ')' :: vs) : xs = ys ∧ us = vs := by
  obtain ⟨zs, rfl, hzs⟩ := hx.exists_append hy h
  cases zs with
  | nil => exact ⟨(List.append_nil _).symm, (List.cons.inj hzs).2⟩
  | cons c zs =>
    obtain ⟨rfl, -⟩ := List.cons.inj hzs
    obtain ⟨r, hrun, -⟩ := reads_iff.mp hy
    rw [hx.not_closed] at hrun
    cases hrun

/-! ## Texts without items -/

/-- What has been read is not forgotten. -/
theorem settled_ne_start_of_step {r r' : Reader} (hr : r.settled ≠ start) (h : r.step c = some r') :
    r'.settled ≠ start := by
  have hmark : ∀ {r r' : Reader}, r.mode = .between → r ≠ start → r.mark c = some r' →
      r'.settled ≠ start := by
    intro r r' hmode hr h
    obtain ⟨m, items, outer⟩ := r
    cases hmode
    unfold mark at h
    split_ifs at h with hopen hclose hq ha
    · cases h
      simp [settled, start]
    · cases outer with
      | nil => cases h
      | cons o os =>
        cases h
        simp [settled, start]
    · cases h
      simp [settled, start]
    · cases h
      simp [settled, start]
    · cases h
      exact hr
  obtain ⟨m, items, outer⟩ := r
  unfold step at h
  cases m with
  | between => exact hmark rfl hr h
  | word front =>
    simp only at h
    split_ifs at h
    · cases h
      simp [settled, start]
    · exact hmark rfl hr h
  | text front =>
    simp only at h
    split_ifs at h <;> cases h <;> simp [settled, start]
  | escape front =>
    cases h
    simp [settled, start]

theorem settled_ne_start_of_run {r r' : Reader} (hr : r.settled ≠ start) (h : r.run xs = some r') :
    r'.settled ≠ start := by
  induction xs generalizing r with
  | nil =>
    cases h
    exact hr
  | cons c cs ih =>
    rw [run_cons, Option.bind_eq_some_iff] at h
    obtain ⟨q, hstep, hrun⟩ := h
    exact ih (settled_ne_start_of_step hr hstep) hrun

/-- A text without items is blank. -/
theorem reads_nil_iff : Reads xs [] ↔ ∀ c ∈ xs, isGap c = true := by
  induction xs with
  | nil => simp [reads_nil]
  | cons c cs ih =>
    rw [List.forall_mem_cons, ← ih]
    constructor
    · intro h
      have hc : isGap c = true := by
        by_contra hc
        obtain ⟨r, hrun, hr⟩ := reads_iff.mp h
        rw [run_cons, Option.bind_eq_some_iff] at hrun
        obtain ⟨q, hstep, hrun⟩ := hrun
        refine settled_ne_start_of_run ?_ hrun hr
        have hmark : start.mark c = some q := hstep
        unfold mark at hmark
        split_ifs at hmark with hopen hclose hq ha
        · cases hmark
          simp [settled, start]
        · cases hmark
        · cases hmark
          simp [settled, start]
        · cases hmark
          simp [settled, start]
        · exact absurd (isGap_of_marks hopen hclose hq ha) hc
      exact ⟨hc, (reads_cons_iff hc).mp h⟩
    · rintro ⟨hc, h⟩
      exact (reads_cons_iff hc).mpr h

/-! ## Where a list is read -/

/-- One step outside of lists brings no list. -/
theorem step_flat {r r' : Reader} (hr : r.outer = []) (h : r.step c = some r')
    (hopen : ¬ (c = '(' ∧ r.settled.mode = .between)) :
    r'.outer = [] ∧ (.list q ∈ r'.settled.items → .list q ∈ r.settled.items) := by
  have hmark : ∀ {r r' : Reader}, r.mode = .between → r.outer = [] → r.mark c = some r' → c ≠ '(' →
      r'.outer = [] ∧ (.list q ∈ r'.settled.items → .list q ∈ r.items) := by
    intro r r' hmode hr h hopen
    obtain ⟨m, items, outer⟩ := r
    cases hmode
    cases hr
    rw [mark, if_neg hopen] at h
    split_ifs at h with hclose hq ha <;> cases h <;> simp [settled]
  obtain ⟨m, items, outer⟩ := r
  cases hr
  unfold step at h
  cases m with
  | between => exact hmark rfl rfl h fun hc => hopen ⟨hc, rfl⟩
  | word front =>
    simp only at h
    split_ifs at h
    · cases h
      simp [settled]
    · exact hmark rfl rfl h fun hc => hopen ⟨hc, rfl⟩
  | text front =>
    simp only at h
    split_ifs at h <;> cases h <;> simp [settled]
  | escape front =>
    cases h
    simp [settled]

/-- A list that is read outside of lists was there before or stands in the text. -/
theorem exists_of_mem_run {xs : List Char} {r r' : Reader} (hr : r.outer = []) (h : r.run xs = some r')
    (hr' : r'.outer = []) (hq : .list q ∈ r'.settled.items) :
    .list q ∈ r.settled.items ∨ ∃ ys zs inner s as, xs = ys ++ '(' :: (inner ++ ')' :: zs) ∧
      r.run ys = some s ∧ s.settled = ⟨.between, as, []⟩ ∧ Reads inner q := by
  match xs with
  | [] =>
    cases h
    exact Or.inl hq
  | c :: cs =>
    by_cases hopen : c = '(' ∧ r.settled.mode = .between
    · obtain ⟨rfl, hmode⟩ := hopen
      have hsettled : r.settled = ⟨.between, r.settled.items, []⟩ := by
        rw [← hmode, ← hr, ← outer_settled]
      obtain ⟨inner, rest, ds', rfl, hinner, hrest⟩ :=
        exists_of_run_list hsettled h (by simp [hr'])
      have hshort : rest.length < ('(' :: (inner ++ ')' :: rest)).length := by
        simp
        omega
      rcases exists_of_mem_run rfl hrest hr' hq with hmem | ⟨ys, zs, inner', s, as, rfl, hys, hs, hq'⟩
      · rcases List.mem_append.mp hmem with hmem | hmem
        · exact Or.inl hmem
        · cases List.mem_singleton.mp hmem
          exact Or.inr ⟨[], rest, inner, r, _, rfl, rfl, hsettled, hinner⟩
      · refine Or.inr ⟨'(' :: (inner ++ ')' :: ys), zs, inner', s, as, by simp, ?_, hs, hq'⟩
        rw [run_list hsettled hinner, hys]
    · rw [run_cons, Option.bind_eq_some_iff] at h
      obtain ⟨p, hstep, hrun⟩ := h
      obtain ⟨hp, hback⟩ := step_flat (q := q) hr hstep hopen
      rcases exists_of_mem_run hp hrun hr' hq with hmem | ⟨ys, zs, inner, s, as, rfl, hys, hs, hq'⟩
      · exact Or.inl (hback hmem)
      · refine Or.inr ⟨c :: ys, zs, inner, s, as, rfl, ?_, hs, hq'⟩
        rw [run_cons, hstep]
        exact hys
termination_by xs.length

/-- **A list that is read stands in the text**, between what was read before and after it. -/
theorem Reads.origin (h : Reads xs ds) (hq : .list q ∈ ds) :
    ∃ ys zs inner as bs, xs = ys ++ '(' :: (inner ++ ')' :: zs) ∧ Reads ys as ∧ Reads inner q ∧
      Reads zs bs ∧ ds = as ++ .list q :: bs := by
  obtain ⟨r, hrun, hr⟩ := reads_iff.mp h
  have houter : r.outer = [] := by rw [← outer_settled, hr]
  have hmem : .list q ∈ r.settled.items := by rwa [hr]
  rcases exists_of_mem_run rfl hrun houter hmem with hmem | ⟨ys, zs, inner, s, as, rfl, hys, hs, hinner⟩
  · cases hmem
  · have hyas : Reads ys as := reads_iff.mpr ⟨s, hys, hs⟩
    obtain ⟨ds', hlist, rfl⟩ := (reads_append_iff hyas rfl).mp h
    obtain ⟨bs, hzs, rfl⟩ := (reads_list_iff hinner).mp hlist
    exact ⟨ys, zs, inner, as, bs, rfl, hyas, hinner, hzs, rfl⟩

end
end EdaParts.Modern
