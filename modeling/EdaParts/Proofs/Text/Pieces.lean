import Mathlib.Data.List.Forall2
import Mathlib.Data.List.TakeWhile
import EdaParts.Text.Blank
import EdaParts.Text.Split

/-!
# Pieces of a text

* `pieces_append_sep` : a separator parts the pieces; `pieces_append_cons` : the first one ends the first piece;
* `pieces_join` : pieces without separators are found again when they have been joined;
* `mapM_eq_some_iff` : pieces are read one by one;
* `words_append_cons` : so do blanks part words; `solid_of_mem_words`, `words_of_solid` : words have no blanks, and a
  text without blanks is a word;
* `Padded` : a text with blanks around it; `Padded.trim_eq`, `Padded.words_eq` : what does not see them.
-/

namespace EdaParts.Text

variable {sep : Char} {xs ys : List Char}

theorem pieces_ne_nil (sep : Char) (cs : List Char) : pieces sep cs ≠ [] := by
  induction cs with
  | nil => exact List.cons_ne_nil _ _
  | cons c cs ih =>
    rw [pieces]
    split
    · exact List.cons_ne_nil _ _
    · split <;> exact List.cons_ne_nil _ _

theorem pieces_of_not_mem (h : sep ∉ xs) : pieces sep xs = [xs] := by
  induction xs with
  | nil => rfl
  | cons c xs ih =>
    rw [List.mem_cons, not_or] at h
    rw [pieces, if_neg fun hc => h.1 hc.symm, ih h.2]

/-- A separator parts the pieces before it from those after it. -/
theorem pieces_append_sep (xs ys : List Char) :
    pieces sep (xs ++ sep :: ys) = pieces sep xs ++ pieces sep ys := by
  induction xs with
  | nil => simp [pieces]
  | cons c xs ih =>
    rw [List.cons_append, pieces, pieces, ih]
    split
    · rfl
    · cases hpieces : pieces sep xs with
      | nil => exact absurd hpieces (pieces_ne_nil sep xs)
      | cons p ps => rfl

theorem pieces_append_cons (h : sep ∉ xs) (ys : List Char) :
    pieces sep (xs ++ sep :: ys) = xs :: pieces sep ys := by
  rw [pieces_append_sep, pieces_of_not_mem h, List.singleton_append]

theorem not_mem_of_mem_pieces {cs p : List Char} (h : p ∈ pieces sep cs) : sep ∉ p := by
  induction cs generalizing p with
  | nil =>
    rw [List.mem_singleton.mp h]
    exact List.not_mem_nil
  | cons c cs ih =>
    rw [pieces] at h
    split at h
    · rcases List.mem_cons.mp h with rfl | h
      · exact List.not_mem_nil
      · exact ih h
    · next hc =>
      split at h
      · rw [List.mem_singleton.mp h]
        simpa using fun hsep : sep = c => hc hsep.symm
      · next q qs hpieces =>
        rw [hpieces] at ih
        rcases List.mem_cons.mp h with rfl | h
        · rw [List.mem_cons, not_or]
          exact ⟨fun hsep => hc hsep.symm, ih List.mem_cons_self⟩
        · exact ih (List.mem_cons_of_mem q h)

/-- **Joined pieces** are found again. -/
theorem pieces_join {ps : List (List Char)} (hne : ps ≠ []) (h : ∀ p ∈ ps, sep ∉ p) :
    pieces sep (join sep ps) = ps := by
  induction ps with
  | nil => exact absurd rfl hne
  | cons p ps ih =>
    obtain ⟨hp, hps⟩ := List.forall_mem_cons.mp h
    cases ps with
    | nil => exact pieces_of_not_mem hp
    | cons q ps => rw [join, pieces_append_cons hp, ih (List.cons_ne_nil q ps) hps]

section
variable {α β γ : Type}

theorem mapM_eq_some_iff {f : α → Option β} {as : List α} {bs : List β} :
    as.mapM f = some bs ↔ List.Forall₂ (fun a b => f a = some b) as bs := by
  induction as generalizing bs with
  | nil => simp [eq_comm]
  | cons a as ih =>
    rw [List.mapM_cons]
    constructor
    · intro h
      obtain ⟨b, hb, h⟩ := Option.bind_eq_some_iff.mp h
      obtain ⟨bs, hbs, h⟩ := Option.bind_eq_some_iff.mp h
      obtain rfl := Option.some.inj h
      exact .cons hb (ih.mp hbs)
    · intro h
      cases h with
      | cons hb hbs =>
        rw [hb, ih.mpr hbs]
        rfl

/-- Two things made of each part of a list correspond in order. -/
theorem forall₂_map_map {R : β → γ → Prop} {f : α → β} {h : α → γ} (hR : ∀ a, R (f a) (h a)) (as : List α) :
    List.Forall₂ R (as.map f) (as.map h) := by
  rw [List.forall₂_map_left_iff, List.forall₂_map_right_iff]
  exact List.forall₂_same.mpr fun a _ => hR a

/-- What each part of a list says is what all of them say. -/
theorem mapM_map_eq_some {f : α → β} {g : β → Option γ} {h : α → γ} (hf : ∀ a, g (f a) = some (h a))
    (as : List α) : (as.map f).mapM g = some (as.map h) := by
  rw [mapM_eq_some_iff]
  exact forall₂_map_map (R := fun b c => g b = some c) hf as

end

/-! ## Words -/

/-- The text has characters, and none of them is blank. -/
def Solid (cs : List Char) : Prop :=
  cs ≠ [] ∧ ∀ c ∈ cs, isBlank c = false

instance (cs : List Char) : Decidable (Solid cs) :=
  decidable_of_iff (cs ≠ [] ∧ cs.all (!isBlank ·) = true) (and_congr_right fun _ => by simp)

theorem wordsFrom_append_cons {c : Char} (hc : isBlank c = true) (run xs ys : List Char) :
    wordsFrom run (xs ++ c :: ys) = wordsFrom run xs ++ words ys := by
  induction xs generalizing run with
  | nil =>
    show (if isBlank c = true then if run.isEmpty then words ys else run.reverse :: words ys else _) =
      (if run.isEmpty then [] else [run.reverse]) ++ words ys
    rw [if_pos hc]
    split <;> rfl
  | cons x xs ih =>
    rw [List.cons_append, wordsFrom, wordsFrom]
    split
    · split
      · exact ih []
      · rw [ih, List.cons_append]
    · exact ih (x :: run)

/-- **A blank parts the words** before it from those after it. -/
theorem words_append_cons {c : Char} (hc : isBlank c = true) (xs ys : List Char) :
    words (xs ++ c :: ys) = words xs ++ words ys :=
  wordsFrom_append_cons hc [] xs ys

theorem solid_of_mem_wordsFrom {run w : List Char} (hrun : ∀ c ∈ run, isBlank c = false) (xs : List Char)
    (h : w ∈ wordsFrom run xs) : Solid w := by
  induction xs generalizing run with
  | nil =>
    rw [wordsFrom] at h
    split at h
    · nomatch h
    · next hne =>
      rw [List.mem_singleton.mp h]
      exact ⟨by simpa using hne, by simpa using hrun⟩
  | cons x xs ih =>
    rw [wordsFrom] at h
    split at h
    · split at h
      · exact ih (List.forall_mem_nil _) h
      · next hne =>
        rcases List.mem_cons.mp h with rfl | h
        · exact ⟨by simpa using hne, by simpa using hrun⟩
        · exact ih (List.forall_mem_nil _) h
    · next hx => exact ih (List.forall_mem_cons.mpr ⟨Bool.eq_false_iff.mpr hx, hrun⟩) h

theorem solid_of_mem_words {w xs : List Char} (h : w ∈ words xs) : Solid w :=
  solid_of_mem_wordsFrom (List.forall_mem_nil _) xs h

theorem words_of_solid (h : Solid xs) : words xs = [xs] := by
  have hrun (run : List Char) : wordsFrom run xs = wordsFrom (xs.reverse ++ run) [] := by
    obtain ⟨-, h⟩ := h
    induction xs generalizing run with
    | nil => rfl
    | cons x xs ih =>
      obtain ⟨hx, hxs⟩ := List.forall_mem_cons.mp h
      show (if isBlank x = true then _ else wordsFrom (x :: run) xs) = _
      rw [if_neg (Bool.eq_false_iff.mp hx), ih _ hxs, List.reverse_cons, List.append_assoc]
      rfl
  rw [words, hrun, wordsFrom, List.append_nil, List.reverse_reverse, if_neg (by simpa using h.1)]

/-! ## Blanks around a text -/

section
variable {before cs after : List Char}

theorem trimStart_append (hbefore : ∀ c ∈ before, isBlank c = true) : trimStart (before ++ cs) = trimStart cs :=
  List.dropWhile_append_of_pos hbefore

theorem trimEnd_append (hafter : ∀ c ∈ after, isBlank c = true) : trimEnd (cs ++ after) = trimEnd cs := by
  rw [trimEnd, List.reverse_append, List.dropWhile_append_of_pos (by simpa using hafter), trimEnd]

/-- Blanks around a text are left out. -/
theorem trim_surrounded (hbefore : ∀ c ∈ before, isBlank c = true) (hafter : ∀ c ∈ after, isBlank c = true) :
    trim (before ++ cs ++ after) = trim cs := by
  rw [trim, List.append_assoc, trimStart_append hbefore, trimStart, List.dropWhile_append, trim, trimStart]
  split
  · next hnone =>
    have hrest : after.dropWhile isBlank = [] := List.dropWhile_eq_nil_iff.mpr hafter
    rw [hrest, List.isEmpty_iff.mp hnone]
  · exact trimEnd_append hafter

theorem words_of_blank (h : ∀ c ∈ cs, isBlank c = true) : words cs = [] := by
  induction cs with
  | nil => rfl
  | cons c cs ih =>
    obtain ⟨hc, hcs⟩ := List.forall_mem_cons.mp h
    exact (words_append_cons hc [] cs).trans (ih hcs)

/-- Blanks around a text make no words. -/
theorem words_surrounded (hbefore : ∀ c ∈ before, isBlank c = true) (hafter : ∀ c ∈ after, isBlank c = true) :
    words (before ++ cs ++ after) = words cs := by
  have hfront : words (before ++ (cs ++ after)) = words (cs ++ after) := by
    induction before with
    | nil => rfl
    | cons c before ih =>
      obtain ⟨hc, hbefore⟩ := List.forall_mem_cons.mp hbefore
      exact (words_append_cons hc [] _).trans (ih hbefore)
  rw [List.append_assoc, hfront]
  cases after with
  | nil => rw [List.append_nil]
  | cons c after =>
    obtain ⟨hc, hafter⟩ := List.forall_mem_cons.mp hafter
    rw [words_append_cons hc, words_of_blank hafter, List.append_nil]

end

/-- The second text is the first with blanks around it. -/
def Padded (s t : String) : Prop :=
  ∃ before after, isBlankText before = true ∧ isBlankText after = true ∧ t = before ++ s ++ after

namespace Padded

variable {s t : String}

theorem toList_eq (h : Padded s t) : ∃ before after, (∀ c ∈ before, isBlank c = true) ∧
    (∀ c ∈ after, isBlank c = true) ∧ t.toList = before ++ s.toList ++ after := by
  obtain ⟨before, after, hbefore, hafter, rfl⟩ := h
  exact ⟨before.toList, after.toList, List.all_eq_true.mp hbefore, List.all_eq_true.mp hafter, by simp⟩

theorem trim_eq (h : Padded s t) : trim t.toList = trim s.toList := by
  obtain ⟨before, after, hbefore, hafter, heq⟩ := h.toList_eq
  rw [heq, trim_surrounded hbefore hafter]

theorem words_eq (h : Padded s t) : words t.toList = words s.toList := by
  obtain ⟨before, after, hbefore, hafter, heq⟩ := h.toList_eq
  rw [heq, words_surrounded hbefore hafter]

/-- A text without blanks has none around it. -/
theorem eq_of_solid (h : Padded s t) (ht : Solid t.toList) : t = s := by
  obtain ⟨before, after, hbefore, hafter, heq⟩ := h.toList_eq
  have hnone {cs : List Char} (hblank : ∀ c ∈ cs, isBlank c = true) (hsub : ∀ c ∈ cs, c ∈ t.toList) : cs = [] := by
    refine List.eq_nil_iff_forall_not_mem.mpr fun c hc => ?_
    cases (hblank c hc).symm.trans (ht.2 c (hsub c hc))
  obtain rfl := hnone hbefore fun c hc => by simp [heq, hc]
  obtain rfl := hnone hafter fun c hc => by simp [heq, hc]
  exact String.toList_inj.mp (by simpa using heq)

end Padded

end EdaParts.Text
