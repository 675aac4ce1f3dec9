import Mathlib.Data.List.Infix

/-!
# Where lines begin

Entries of a library are looked for at the beginnings of lines. The notions here say where those are
in a text that is cut in two, and which of them is the first with a property of what follows it.

* `beginsLine` : a line begins after a part of a text;
* `FirstLine` : the first line whose text from there on has a property, `NoLine` : there is none;
* `Passes` : no line that begins within the front of a text has it, whatever follows the front.
-/

namespace EdaParts.Text

/-- A line begins after the text, where `fresh` says so of the place before it. -/
def beginsLine : (fresh : Bool) → List Char → Bool
  | fresh, [] => fresh
  | _, c :: cs => beginsLine (c = '\n') cs

@[simp] theorem beginsLine_nil (fresh : Bool) : beginsLine fresh [] = fresh := rfl

@[simp] theorem beginsLine_cons (fresh : Bool) (c : Char) (cs : List Char) :
    beginsLine fresh (c :: cs) = beginsLine (c = '\n') cs := rfl

@[simp] theorem beginsLine_append (fresh : Bool) (xs ys : List Char) :
    beginsLine fresh (xs ++ ys) = beginsLine (beginsLine fresh xs) ys := by
  induction xs generalizing fresh with
  | nil => rfl
  | cons c xs ih => rw [List.cons_append, beginsLine_cons, beginsLine_cons, ih]

/-- Only a line feed makes a line begin after a text that is not empty. -/
theorem beginsLine_eq_true_iff {fresh : Bool} {cs : List Char} :
    beginsLine fresh cs = true ↔ (cs = [] ∧ fresh = true) ∨ ∃ xs, cs = xs ++ ['\n'] := by
  rcases List.eq_nil_or_concat cs with rfl | ⟨xs, c, rfl⟩
  · simp
  · rw [List.concat_eq_append, beginsLine_append]
    simp only [beginsLine_cons, beginsLine_nil, decide_eq_true_eq, List.append_eq_nil_iff,
      List.cons_ne_nil, and_false, false_and, false_or]
    constructor
    · rintro rfl
      exact ⟨xs, rfl⟩
    · rintro ⟨ys, h⟩
      exact (List.cons.inj (List.append_inj' h rfl).2).1

/-! ## The first line with a property -/

/-- `before` is what stands before the first line of a text that has the property from there on. -/
structure FirstLine (P : List Char → Prop) (fresh : Bool) (text before rest : List Char) : Prop where
  eq : text = before ++ rest
  begins : beginsLine fresh before = true
  holds : P rest
  first : ∀ b r, text = b ++ r → b.length < before.length → beginsLine fresh b = true → ¬ P r

def NoLine (P : List Char → Prop) (fresh : Bool) (text : List Char) : Prop :=
  ∀ b r, text = b ++ r → beginsLine fresh b = true → ¬ P r

/-- No line that begins within `xs` has the property from there on, where `ys` follows. -/
def Passes (P : List Char → Prop) (fresh : Bool) (xs ys : List Char) : Prop :=
  ∀ b r, xs = b ++ r → r ≠ [] → beginsLine fresh b = true → ¬ P (r ++ ys)

section
variable {P Q : List Char → Prop} {fresh : Bool} {c : Char} {cs xs ys zs b r : List Char}

theorem firstLine_nil : FirstLine P fresh cs [] r ↔ r = cs ∧ fresh = true ∧ P cs := by
  constructor
  · intro h
    have he : cs = r := h.eq
    subst he
    exact ⟨rfl, h.begins, h.holds⟩
  · rintro ⟨rfl, hf, hP⟩
    exact ⟨rfl, hf, hP, fun b r _ hlt => absurd hlt (Nat.not_lt_zero _)⟩

theorem firstLine_cons {d : Char} :
    FirstLine P fresh (c :: cs) (d :: b) r ↔
      d = c ∧ ¬(fresh = true ∧ P (c :: cs)) ∧ FirstLine P (c = '\n') cs b r := by
  constructor
  · intro h
    obtain ⟨rfl, hcs⟩ := List.cons.inj h.eq
    refine ⟨rfl, fun hf => h.first [] _ rfl (Nat.zero_lt_succ _) hf.1 hf.2, hcs, h.begins, h.holds, ?_⟩
    intro b' r' he hlt hb
    exact h.first (c :: b') r' (by rw [he]; rfl) (Nat.succ_lt_succ hlt) hb
  · rintro ⟨rfl, hfirst, h⟩
    refine ⟨by rw [h.eq]; rfl, h.begins, h.holds, ?_⟩
    intro b' r' he hlt hb hP
    cases b' with
    | nil =>
      have hr : d :: cs = r' := he
      subst hr
      exact hfirst ⟨hb, hP⟩
    | cons e b' =>
      obtain ⟨rfl, hcs⟩ := List.cons.inj he
      exact h.first b' r' hcs (Nat.lt_of_succ_lt_succ hlt) hb hP

theorem noLine_nil : NoLine P fresh [] ↔ ¬(fresh = true ∧ P []) := by
  constructor
  · intro h hf
    exact h [] [] rfl hf.1 hf.2
  · intro h b r he hb hP
    obtain ⟨rfl, rfl⟩ := List.nil_eq_append_iff.mp he
    exact h ⟨hb, hP⟩

theorem noLine_cons :
    NoLine P fresh (c :: cs) ↔ ¬(fresh = true ∧ P (c :: cs)) ∧ NoLine P (c = '\n') cs := by
  constructor
  · intro h
    exact ⟨fun hf => h [] _ rfl hf.1 hf.2, fun b r he hb => h (c :: b) r (by rw [he]; rfl) hb⟩
  · rintro ⟨hfirst, h⟩ b r he hb hP
    cases b with
    | nil =>
      have hr : c :: cs = r := he
      subst hr
      exact hfirst ⟨hb, hP⟩
    | cons d b =>
      obtain ⟨rfl, hcs⟩ := List.cons.inj he
      exact h b r hcs hb hP

theorem FirstLine.unique {b' r' : List Char} (h : FirstLine P fresh cs b r)
    (h' : FirstLine P fresh cs b' r') : b = b' ∧ r = r' := by
  have hlen : b.length = b'.length := by
    rcases Nat.lt_trichotomy b.length b'.length with hlt | heq | hlt
    · exact absurd h.holds (h'.first b r h.eq hlt h.begins)
    · exact heq
    · exact absurd h'.holds (h.first b' r' h'.eq hlt h'.begins)
  exact List.append_inj (h.eq.symm.trans h'.eq) hlen

/-- A line at the front that has the property is the first one. -/
theorem firstLine_of_front (hf : fresh = true) (hP : P cs) :
    FirstLine P fresh cs b r ↔ b = [] ∧ r = cs := by
  have hfront : FirstLine P fresh cs [] cs := firstLine_nil.mpr ⟨rfl, hf, hP⟩
  constructor
  · intro h
    obtain ⟨hb, hr⟩ := hfront.unique h
    exact ⟨hb.symm, hr.symm⟩
  · rintro ⟨rfl, rfl⟩
    exact hfront

theorem not_firstLine_nil (h : ¬(fresh = true ∧ P [])) : ¬ FirstLine P fresh [] b r := by
  intro hfirst
  obtain ⟨rfl, rfl⟩ := List.nil_eq_append_iff.mp hfirst.eq
  exact h ⟨hfirst.begins, hfirst.holds⟩

/-- Without one at the front, the first line is that of the rest. -/
theorem firstLine_past_front (h : ¬(fresh = true ∧ P (c :: cs))) :
    FirstLine P fresh (c :: cs) b r ↔ ∃ b', b = c :: b' ∧ FirstLine P (c = '\n') cs b' r := by
  constructor
  · intro hfirst
    cases b with
    | nil => exact absurd (firstLine_nil.mp hfirst).2 h
    | cons d b =>
      obtain ⟨rfl, -, hfirst⟩ := firstLine_cons.mp hfirst
      exact ⟨b, rfl, hfirst⟩
  · rintro ⟨b', rfl, hfirst⟩
    exact firstLine_cons.mpr ⟨rfl, h, hfirst⟩

theorem Passes.firstLine (hx : Passes P fresh xs ys)
    (h : FirstLine P (beginsLine fresh xs) ys b r) : FirstLine P fresh (xs ++ ys) (xs ++ b) r := by
  refine ⟨by rw [h.eq, List.append_assoc], by rw [beginsLine_append]; exact h.begins, h.holds, ?_⟩
  intro b' r' he hlt hb hP
  -- A shorter front ends within `xs`, or after it and within `b`.
  rcases List.append_eq_append_iff.mp he with ⟨z, rfl, hz⟩ | ⟨z, hz, rfl⟩
  · rw [beginsLine_append] at hb
    rw [List.length_append, List.length_append] at hlt
    exact h.first z r' hz (by omega) hb hP
  · cases z with
    | nil =>
      rw [List.append_nil] at hz
      subst hz
      have hpos : 0 < b.length := by
        rw [List.length_append] at hlt
        omega
      exact h.first [] ys rfl hpos (by simpa using hb) (by simpa using hP)
    | cons d z => exact hx b' (d :: z) hz (List.cons_ne_nil _ _) hb hP

theorem Passes.noLine (hx : Passes P fresh xs ys) (h : NoLine P (beginsLine fresh xs) ys) :
    NoLine P fresh (xs ++ ys) := by
  intro b' r' he hb hP
  rcases List.append_eq_append_iff.mp he with ⟨z, rfl, hz⟩ | ⟨z, hz, rfl⟩
  · exact h z r' hz (by rw [beginsLine_append] at hb; exact hb) hP
  · cases z with
    | nil =>
      rw [List.append_nil] at hz
      subst hz
      exact h [] ys rfl (by simpa using hb) (by simpa using hP)
    | cons d z => exact hx b' (d :: z) hz (List.cons_ne_nil _ _) hb hP

theorem Passes.nil : Passes P fresh [] ys := by
  intro b r he hr
  exact absurd (List.nil_eq_append_iff.mp he).2 hr

/-- The text itself begins the first line, if a line begins there. -/
theorem Passes.of_false (h : Passes P false xs ys) (hP : ¬ P (xs ++ ys)) : Passes P fresh xs ys := by
  intro b r he hr hb
  cases b with
  | nil =>
    obtain rfl : xs = r := he
    exact hP
  | cons c b => exact h (c :: b) r he hr hb

theorem Passes.append (hx : Passes P fresh xs (ys ++ zs))
    (hy : Passes P (beginsLine fresh xs) ys zs) : Passes P fresh (xs ++ ys) zs := by
  intro b r he hr hb hP
  rcases List.append_eq_append_iff.mp he with ⟨z, rfl, hz⟩ | ⟨z, hz, rfl⟩
  · exact hy z r hz hr (by rw [beginsLine_append] at hb; exact hb) hP
  · cases z with
    | nil =>
      rw [List.append_nil] at hz
      subst hz
      exact hy [] ys rfl hr (by simpa using hb) (by simpa using hP)
    | cons d z =>
      rw [List.append_assoc] at hP
      exact hx b (d :: z) hz (List.cons_ne_nil _ _) hb hP

/-- A line is passed if it does not have the property itself. -/
theorem Passes.line {line : List Char} (hline : '\n' ∉ line) (h : ¬ P (line ++ '\n' :: ys)) :
    Passes P fresh (line ++ ['\n']) ys := by
  intro b r he hr hb hP
  cases b with
  | nil =>
    have hr' : line ++ ['\n'] = r := he
    subst hr'
    exact h (by simpa using hP)
  | cons d b =>
    -- No line begins between the first character and the line feed at the end.
    rcases beginsLine_eq_true_iff.mp hb with ⟨hnil, _⟩ | ⟨z, hz⟩
    · exact absurd hnil (List.cons_ne_nil _ _)
    · rw [hz, List.append_assoc] at he
      obtain ⟨r', c, rfl⟩ := (List.eq_nil_or_concat r).resolve_left hr
      have hmem : line = z ++ '\n' :: r' := by
        have h2 : line ++ ['\n'] = (z ++ '\n' :: r') ++ [c] := by simpa using he
        exact (List.append_inj' h2 rfl).1
      exact hline (by rw [hmem]; simp)

theorem Passes.mono (h : Passes P fresh xs ys) (hQ : ∀ cs, Q cs → P cs) : Passes Q fresh xs ys :=
  fun b r he hr hb hq => h b r he hr hb (hQ _ hq)

theorem NoLine.mono (h : NoLine P fresh xs) (hQ : ∀ cs, Q cs → P cs) : NoLine Q fresh xs :=
  fun b r he hb hq => h b r he hb (hQ _ hq)

end

end EdaParts.Text
