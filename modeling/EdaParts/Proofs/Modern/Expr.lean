import EdaParts.Modern.Expr
import EdaParts.Proofs.Text.Occurrence

/-!
# Texts in printed expressions

A printed expression breaks its lines only where the next one is indented, so a line that begins
with a parenthesis comes from a quoted text.

* `Expr.texts` : the quoted texts of an expression;
* `Expr.WellFormed` : its atoms and heads may stand as such;
* `Mirrors` : a parenthesis follows a line feed in some characters just as it does in some texts, and
  `mirrors_print` : so it does in a printed expression and in its texts.
-/

namespace EdaParts.Modern

open Text

def isAtomChar (c : Char) : Bool :=
  c ∉ ['(', ')', '"', ' ', '\t', '\r', '\n']

def IsAtom (s : String) : Prop := s.toList ≠ [] ∧ ∀ c ∈ s.toList, isAtomChar c = true

instance (s : String) : Decidable (IsAtom s) :=
  decidable_of_iff (s.toList ≠ [] ∧ s.toList.all isAtomChar = true)
    (and_congr_right fun _ => List.all_eq_true)

theorem not_mem_of_isAtom {s : String} {c : Char} (h : IsAtom s) (hc : isAtomChar c = false) :
    c ∉ s.toList := by
  intro hmem
  rw [h.2 c hmem] at hc
  cases hc

namespace Expr

mutual

def texts : Expr → List String
  | atom _ => []
  | quoted text => [text]
  | list _ items => textsOf items
  | block _ items body => textsOf items ++ textsOf body

def textsOf : List Expr → List String
  | [] => []
  | e :: es => e.texts ++ textsOf es

end

mutual

/-- The atoms and the heads of an expression may stand as such. -/
def WellFormed : Expr → Prop
  | atom text => IsAtom text
  | quoted _ => True
  | list head items => IsAtom head ∧ AllWellFormed items
  | block head items body => IsAtom head ∧ AllWellFormed items ∧ AllWellFormed body

def AllWellFormed : List Expr → Prop
  | [] => True
  | e :: es => e.WellFormed ∧ AllWellFormed es

end

@[simp] theorem wellFormed_atom {text : String} : (atom text).WellFormed ↔ IsAtom text := Iff.rfl

@[simp] theorem wellFormed_quoted (text : String) : (quoted text).WellFormed := trivial

@[simp] theorem wellFormed_list {head : String} {items : List Expr} :
    (list head items).WellFormed ↔ IsAtom head ∧ AllWellFormed items := Iff.rfl

@[simp] theorem wellFormed_block {head : String} {items body : List Expr} :
    (block head items body).WellFormed ↔ IsAtom head ∧ AllWellFormed items ∧ AllWellFormed body := Iff.rfl

@[simp] theorem allWellFormed_nil : AllWellFormed [] := trivial

@[simp] theorem allWellFormed_cons {e : Expr} {es : List Expr} :
    AllWellFormed (e :: es) ↔ e.WellFormed ∧ AllWellFormed es := Iff.rfl

theorem allWellFormed_iff {es : List Expr} : AllWellFormed es ↔ ∀ e ∈ es, e.WellFormed := by
  induction es with
  | nil => simp
  | cons e es ih => rw [allWellFormed_cons, ih, List.forall_mem_cons]

@[simp] theorem allWellFormed_append (es fs : List Expr) :
    AllWellFormed (es ++ fs) ↔ AllWellFormed es ∧ AllWellFormed fs := by
  simp [allWellFormed_iff, or_imp, forall_and]

theorem textsOf_eq_flatMap (es : List Expr) : textsOf es = es.flatMap texts := by
  induction es with
  | nil => rfl
  | cons e es ih => rw [textsOf, ih, List.flatMap_cons]

end Expr

/-! ## Quoted texts -/

theorem toList_quote (s : String) : (quote s).toList = '"' :: (escape s.toList ++ ['"']) :=
  String.toList_ofList

/-- A character is escaped by a backslash before it, or stands for itself. -/
theorem escape_cons_cases (c : Char) (cs : List Char) :
    (c = '\\' ∨ c = '"') ∧ escape (c :: cs) = '\\' :: c :: escape cs ∨
      (c ≠ '\\' ∧ c ≠ '"') ∧ escape (c :: cs) = c :: escape cs := by
  rw [escape_cons]
  split
  · next h => exact Or.inl ⟨Or.inl h, by rw [h]; rfl⟩
  · next hs =>
    split
    · next h => exact Or.inl ⟨Or.inr h, by rw [h]; rfl⟩
    · next hq => exact Or.inr ⟨⟨hs, hq⟩, rfl⟩

/-- The quote at its end tells what is quoted. -/
theorem eq_of_prefix_escape {xs ys t zs : List Char}
    (h : escape xs ++ '"' :: t <+: escape ys ++ '"' :: zs) : xs = ys := by
  have hnil : escape [] = [] := rfl
  induction xs generalizing ys with
  | nil =>
    cases ys with
    | nil => rfl
    | cons d ys =>
      rcases escape_cons_cases d ys with ⟨-, he⟩ | ⟨⟨-, hd⟩, he⟩
      · simp [hnil, he] at h
      · rw [hnil, he, List.nil_append, List.cons_append, List.cons_prefix_cons] at h
        exact absurd h.1.symm hd
  | cons c xs ih =>
    cases ys with
    | nil =>
      rcases escape_cons_cases c xs with ⟨-, he⟩ | ⟨⟨-, hc⟩, he⟩
      · simp [hnil, he] at h
      · rw [hnil, he, List.nil_append, List.cons_append, List.cons_prefix_cons] at h
        exact absurd h.1 hc
    | cons d ys =>
      rcases escape_cons_cases c xs with ⟨-, hc⟩ | ⟨⟨hcs, -⟩, hc⟩ <;>
        rcases escape_cons_cases d ys with ⟨-, hd⟩ | ⟨⟨hds, -⟩, hd⟩ <;>
        rw [hc, hd] at h <;> simp only [List.cons_append, List.cons_prefix_cons] at h
      · rw [h.2.1, ih h.2.2]
      · exact absurd h.1.symm hds
      · exact absurd h.1 hcs
      · rw [h.1, ih h.2]

/-- Two quoted texts before the same character are the same if one of them begins the other. -/
theorem eq_of_prefix_quote {s u : String} {c : Char} {t zs : List Char}
    (h : (quote s).toList ++ c :: t <+: (quote u).toList ++ c :: zs) : s = u := by
  rw [toList_quote, toList_quote] at h
  simp only [List.cons_append, List.append_assoc, List.nil_append, List.cons_prefix_cons] at h
  exact String.toList_inj.mp (eq_of_prefix_escape h.2)

/-! ## Line feeds before parentheses -/

/-- The character follows a line feed in `xs` just if it does in one of the texts; and a line feed
does not end `xs`. -/
structure Mirrors (c : Char) (xs : List Char) (ts : List String) : Prop where
  occurs : ['\n', c] <:+: xs ↔ ∃ t ∈ ts, ['\n', c] <:+: t.toList
  last : xs.getLast? ≠ some '\n'

section
variable {c : Char} {xs ys : List Char} {ts us : List String}

theorem Mirrors.append (hx : Mirrors c xs ts) (hy : Mirrors c ys us) :
    Mirrors c (xs ++ ys) (ts ++ us) := by
  constructor
  · rw [pair_infix_append, hx.occurs, hy.occurs]
    constructor
    · rintro (⟨t, ht, hin⟩ | ⟨t, ht, hin⟩ | ⟨hlast, -⟩)
      · exact ⟨t, List.mem_append_left _ ht, hin⟩
      · exact ⟨t, List.mem_append_right _ ht, hin⟩
      · exact absurd hlast hx.last
    · rintro ⟨t, ht, hin⟩
      rcases List.mem_append.mp ht with ht | ht
      · exact Or.inl ⟨t, ht, hin⟩
      · exact Or.inr (Or.inl ⟨t, ht, hin⟩)
  · rw [List.getLast?_append]
    cases h : ys.getLast? with
    | none => simpa using hx.last
    | some d =>
      have hd : d ≠ '\n' := fun hd => hy.last (by rw [h, hd])
      simpa using hd

theorem mirrors_of_not_mem (h : '\n' ∉ xs) : Mirrors c xs [] := by
  constructor
  · constructor
    · exact fun hin => absurd (hin.subset (by simp)) h
    · rintro ⟨t, ht, -⟩
      cases ht
  · exact fun hlast => h (List.mem_of_getLast? hlast)

theorem mirrors_quote (hc : c = '(' ∨ c = ')') (t : String) :
    Mirrors c (quote t).toList [t] := by
  have hq : '"' ∉ ['\n', c] := by rcases hc with rfl | rfl <;> decide
  have hs : '\\' ∉ ['\n', c] := by rcases hc with rfl | rfl <;> decide
  constructor
  · have hcut : ['\n', c] <:+: [] ++ '"' :: (escape t.toList ++ '"' :: []) ↔
        ['\n', c] <:+: [] ∨ ['\n', c] <:+: escape t.toList ++ '"' :: [] := infix_append_cons hq
    rw [toList_quote, ← List.nil_append ('"' :: _), hcut, infix_append_cons hq,
      infix_escape (List.cons_ne_nil _ _) hs hq]
    simp
  · rw [toList_quote, ← List.cons_append, List.getLast?_concat]
    decide

/-- A new line is indented, unless it stands at the outermost depth. -/
theorem mirrors_newline (hc : c = '(' ∨ c = ')') (d : Nat) : Mirrors c (newline (d + 1)).toList [] := by
  have hnewline : (newline (d + 1)).toList = ['\n'] ++ (' ' :: List.replicate (2 * d + 1) ' ') := by
    unfold newline
    rw [String.toList_ofList, show 2 * (d + 1) = (2 * d + 1) + 1 by omega, List.replicate_succ]
    rfl
  have hblanks : '\n' ∉ ' ' :: List.replicate (2 * d + 1) ' ' := by
    rw [← List.replicate_succ]
    intro hmem
    exact absurd (List.eq_of_mem_replicate hmem) (by decide)
  have hblank : ' ' ≠ c := by rcases hc with rfl | rfl <;> decide
  have hindent : Mirrors c (' ' :: List.replicate (2 * d + 1) ' ') [] := mirrors_of_not_mem hblanks
  constructor
  · rw [hnewline, pair_infix_append, hindent.occurs]
    simp [List.infix_singleton_iff, hblank]
  · rw [hnewline, List.getLast?_append_cons]
    exact hindent.last

end

/-! ## Printed expressions -/

theorem mirrors_of_isAtom {c : Char} {s : String} (h : IsAtom s) : Mirrors c s.toList [] :=
  mirrors_of_not_mem (not_mem_of_isAtom h (by decide))

section
variable {c : Char}

open Modern.Expr

mutual

/-- **A parenthesis follows a line feed** in an expression that is printed further in just as it does in
the texts of the expression. -/
theorem mirrors_print (hc : c = '(' ∨ c = ')') (d : Nat) : ∀ {e : Expr}, e.WellFormed →
    Mirrors c (e.print (d + 1)).toList e.texts
  | atom text, h => mirrors_of_isAtom h
  | quoted text, _ => mirrors_quote hc text
  | list head items, h => by
    have hopen : Mirrors c "(".toList [] := mirrors_of_not_mem (by decide)
    have hgap : Mirrors c " ".toList [] := mirrors_of_not_mem (by decide)
    have hclose : Mirrors c ")".toList [] := mirrors_of_not_mem (by decide)
    have hprint := (((hopen.append (mirrors_of_isAtom h.1)).append hgap).append
      (mirrors_printItems hc d h.2)).append hclose
    simpa [print, texts] using hprint
  | block head items body, h => by
    have hopen : Mirrors c "(".toList [] := mirrors_of_not_mem (by decide)
    have hclose : Mirrors c ")".toList [] := mirrors_of_not_mem (by decide)
    have hprint := ((((hopen.append (mirrors_of_isAtom h.1)).append
      (mirrors_printInline hc d h.2.1)).append (mirrors_printBody hc (d + 1) h.2.2)).append
      (mirrors_newline hc d)).append hclose
    simpa [print, texts] using hprint

theorem mirrors_printItems (hc : c = '(' ∨ c = ')') (d : Nat) : ∀ {es : List Expr}, AllWellFormed es →
    Mirrors c (printItems (d + 1) es).toList (textsOf es)
  | [], _ => by
    rw [printItems]
    exact mirrors_of_not_mem (by decide)
  | e :: es, h => by
    have hprint := (mirrors_print hc d h.1).append (mirrors_printInline hc d h.2)
    simpa [printItems, textsOf] using hprint

theorem mirrors_printInline (hc : c = '(' ∨ c = ')') (d : Nat) : ∀ {es : List Expr}, AllWellFormed es →
    Mirrors c (printInline (d + 1) es).toList (textsOf es)
  | [], _ => by
    rw [printInline]
    exact mirrors_of_not_mem (by decide)
  | e :: es, h => by
    have hgap : Mirrors c " ".toList [] := mirrors_of_not_mem (by decide)
    have hprint := (hgap.append (mirrors_print hc d h.1)).append (mirrors_printInline hc d h.2)
    simpa [printInline, textsOf] using hprint

theorem mirrors_printBody (hc : c = '(' ∨ c = ')') (d : Nat) : ∀ {es : List Expr}, AllWellFormed es →
    Mirrors c (printBody (d + 1) es).toList (textsOf es)
  | [], _ => by
    rw [printBody]
    exact mirrors_of_not_mem (by decide)
  | e :: es, h => by
    have hprint := ((mirrors_newline hc d).append (mirrors_print hc d h.1)).append
      (mirrors_printBody hc d h.2)
    simpa [printBody, textsOf] using hprint

end

end

end EdaParts.Modern
