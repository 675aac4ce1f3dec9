import EdaParts.Proofs.Modern.Reading

/-!
# How expressions are spelled

The reader takes more texts than a writer may leave. Here is the grammar of the format: items are words,
quoted texts and lists in parentheses. In a quoted text a backslash stands before each quote and
backslash, and nowhere else, and a word ends where no character of a word follows.

* `Quotes` : the characters between the quotes spell a text;
* `Spells` : a text spells some items (`Spells.append`);
* `Spells.reads` : the reader reads what is spelled, and nothing else;
* `IsDocument`, `readBack?` : a text is one list on lines of its own, and that is what it reads as.
-/

namespace EdaParts.Modern

/-! ## The grammar -/

/-- Characters between quotes spell a text. A backslash stands before a quote or another backslash. -/
inductive Quotes : List Char → List Char → Prop
  | nil : Quotes [] []
  | plain {c xs s} : c ≠ '\\' → c ≠ '"' → Quotes xs s → Quotes (c :: xs) (c :: s)
  | escaped {c xs s} : c = '\\' ∨ c = '"' → Quotes xs s → Quotes ('\\' :: c :: xs) (c :: s)

/-- The text goes on no word before it. -/
def Apart (xs : List Char) : Prop := ∀ c ∈ xs.head?, isAtomChar c = false

/-- A text spells some items, with blanks and ends of lines between them. -/
inductive Spells : List Char → List Datum → Prop
  | nil : Spells [] []
  | gap {c xs ds} : isGap c = true → Spells xs ds → Spells (c :: xs) ds
  | word {s : String} {xs ds} : IsAtom s → Apart xs → Spells xs ds →
      Spells (s.toList ++ xs) (.word s.toList :: ds)
  | text {q s xs ds} : Quotes q s → Spells xs ds → Spells ('"' :: (q ++ '"' :: xs)) (.text s :: ds)
  | list {inner items xs ds} : Spells inner items → Spells xs ds →
      Spells ('(' :: (inner ++ ')' :: xs)) (.list items :: ds)

section
variable {c : Char} {xs ys inner s : List Char} {as bs ds items : List Datum} {outer : List (List Datum)}

open Reader

/-! ## Words and texts -/

theorem run_word {front : List Char} (hs : ∀ c ∈ s, isAtomChar c = true) :
    (⟨.word front, items, outer⟩ : Reader).run s = some ⟨.word (front ++ s), items, outer⟩ := by
  induction s generalizing front with
  | nil => rw [List.append_nil, run_nil]
  | cons c s ih =>
    obtain ⟨hc, hs⟩ := List.forall_mem_cons.mp hs
    have hstep : (⟨.word front, items, outer⟩ : Reader).step c =
        some ⟨.word (front ++ [c]), items, outer⟩ := by simp [step, hc]
    rw [run_cons, hstep, Option.bind_some, ih hs, List.append_assoc, List.singleton_append]

theorem reads_word {s : String} (hs : IsAtom s) : Reads s.toList [.word s.toList] := by
  obtain ⟨hne, hchars⟩ := hs
  obtain ⟨c, cs, hs⟩ := List.exists_cons_of_ne_nil hne
  rw [hs] at hchars ⊢
  obtain ⟨hc, hcs⟩ := List.forall_mem_cons.mp hchars
  have hopen : c ≠ '(' := fun h => by rw [h] at hc; cases hc
  have hclose : c ≠ ')' := fun h => by rw [h] at hc; cases hc
  have hq : c ≠ '"' := fun h => by rw [h] at hc; cases hc
  have hstep : start.step c = some ⟨.word [c], [], []⟩ := by
    simp [start, step, mark, hopen, hclose, hq, hc]
  rw [Reads, run_cons, hstep, Option.bind_some, run_word hcs]
  rfl

theorem quotes_escape (s : List Char) : Quotes (escape s) s := by
  induction s with
  | nil => exact .nil
  | cons c s ih =>
    rcases escape_cons_cases c s with ⟨hc, he⟩ | ⟨⟨hs, hq⟩, he⟩
    · rw [he]
      exact .escaped hc ih
    · rw [he]
      exact .plain hs hq ih

theorem Quotes.run (h : Quotes xs s) (front : List Char) :
    (⟨.text front, items, outer⟩ : Reader).run xs = some ⟨.text (front ++ s), items, outer⟩ := by
  induction h generalizing front with
  | nil => rw [List.append_nil, run_nil]
  | @plain c xs s hs hq _ ih =>
    have hstep : (⟨.text front, items, outer⟩ : Reader).step c =
        some ⟨.text (front ++ [c]), items, outer⟩ := by simp [step, hs, hq]
    rw [run_cons, hstep, Option.bind_some, ih, List.append_assoc, List.singleton_append]
  | @escaped c xs s _ _ ih =>
    have hstep : (⟨.text front, items, outer⟩ : Reader).run ('\\' :: c :: xs) =
        (⟨.text (front ++ [c]), items, outer⟩ : Reader).run xs := rfl
    rw [hstep, ih, List.append_assoc, List.singleton_append]

/-- A quoted text is read before anything. -/
theorem Quotes.run_start (h : Quotes xs s) (ys : List Char) :
    start.run ('"' :: (xs ++ '"' :: ys)) = (start.within [.text s] []).run ys := by
  have hopen : start.step '"' = some ⟨.text [], [], []⟩ := rfl
  rw [run_cons, hopen, Option.bind_some, run_append, h.run]
  rfl

theorem Quotes.reads (h : Quotes xs s) (hys : Reads ys ds) :
    Reads ('"' :: (xs ++ '"' :: ys)) (.text s :: ds) := by
  rw [Reads, h.run_start, run_within_start_iff]
  exact ⟨ds, hys, rfl⟩

theorem reads_quote (s : String) : Reads (quote s).toList [.text s.toList] := by
  rw [toList_quote]
  exact (quotes_escape s.toList).reads reads_nil

/-! ## Sequences -/

theorem apart_nil : Apart [] := by simp [Apart]

theorem apart_cons (hc : isAtomChar c = false) : Apart (c :: xs) := by simp [Apart, hc]

theorem Apart.append (hx : Apart xs) (hy : Apart ys) : Apart (xs ++ ys) := by
  cases xs with
  | nil => exact hy
  | cons c xs => exact apart_cons (hx c rfl)

theorem Reads.append (hx : Reads xs as) (hy : Reads ys bs) (hapart : Apart ys) :
    Reads (xs ++ ys) (as ++ bs) := by
  cases ys with
  | nil =>
    obtain rfl : bs = [] := hy.unique reads_nil
    rwa [List.append_nil, List.append_nil]
  | cons c ys => exact (reads_append_iff hx (hapart c rfl)).mpr ⟨bs, hy, rfl⟩

/-- A blank text before items says nothing. -/
theorem Reads.blank_append (hx : Reads xs []) (hy : Reads ys bs) : Reads (xs ++ ys) bs := by
  induction xs with
  | nil => exact hy
  | cons c xs ih =>
    obtain ⟨hc, hxs⟩ := List.forall_mem_cons.mp (reads_nil_iff.mp hx)
    exact (reads_cons_iff hc).mpr (ih (reads_nil_iff.mpr hxs))

/-! ## What is spelled -/

/-- Items that are spelled are read, and so they are the only ones. -/
theorem Spells.reads (h : Spells xs ds) : Reads xs ds := by
  induction h with
  | nil => exact reads_nil
  | gap hc _ ih => exact (reads_cons_iff hc).mpr ih
  | word hs hapart _ ih => exact (reads_word hs).append ih hapart
  | text hq _ ih => exact hq.reads ih
  | list _ _ hinner ih => exact (reads_list_iff hinner).mpr ⟨_, ih, rfl⟩

theorem Spells.append (hx : Spells xs as) (hy : Spells ys bs) (hapart : Apart ys) :
    Spells (xs ++ ys) (as ++ bs) := by
  induction hx with
  | nil => exact hy
  | gap hc _ ih => exact .gap hc ih
  | word hs hxs _ ih =>
    rw [List.append_assoc]
    exact .word hs (hxs.append hapart) ih
  | text hq _ ih =>
    rw [List.cons_append, List.append_assoc]
    exact .text hq ih
  | list hinner _ _ ih =>
    rw [List.cons_append, List.append_assoc]
    exact .list hinner ih

theorem spells_word {s : String} (hs : IsAtom s) : Spells s.toList [.word s.toList] := by
  have h := Spells.word hs apart_nil .nil
  rwa [List.append_nil] at h

theorem spells_quote (s : String) : Spells (quote s).toList [.text s.toList] := by
  rw [toList_quote]
  exact .text (quotes_escape s.toList) .nil

theorem spells_list (h : Spells inner items) : Spells ('(' :: (inner ++ [')'])) [.list items] :=
  .list h .nil

/-- Blanks before items change nothing. -/
theorem Spells.blank_append (hx : ∀ c ∈ xs, isGap c = true) (hy : Spells ys bs) :
    Spells (xs ++ ys) bs := by
  induction xs with
  | nil => exact hy
  | cons c xs ih =>
    obtain ⟨hc, hxs⟩ := List.forall_mem_cons.mp hx
    exact .gap hc (ih hxs)

theorem spells_blank (h : ∀ c ∈ xs, isGap c = true) : Spells xs [] := by
  have hblank := Spells.blank_append h .nil
  rwa [List.append_nil] at hblank

end

/-! ## Whole texts -/

/-- A text is one list and the end of its line. -/
def IsDocument (text : String) (items : List Datum) : Prop :=
  ∃ inner, text.toList = '(' :: (inner ++ [')', '\n']) ∧ Spells inner items

/-- What a text reads as, if that is one item. -/
def readBack? (text : String) : Option Datum :=
  match (Reader.start.run text.toList).map Reader.settled with
  | some ⟨.between, [d], []⟩ => some d
  | _ => none

theorem IsDocument.readBack? {text : String} {items : List Datum} (h : IsDocument text items) :
    readBack? text = some (.list items) := by
  obtain ⟨inner, htext, hinner⟩ := h
  have hreads : Reads text.toList [.list items] := by
    rw [htext]
    exact (Spells.list hinner (.gap rfl .nil)).reads
  rw [Modern.readBack?, hreads]

end EdaParts.Modern
