import EdaParts.Proofs.Text.Lines
import EdaParts.Modern.Expr
import EdaParts.Text.Split

/-!
# Occurrences in composed texts

Where a mark occurs in a text that is put together from parts.

* `eq_of_prefix_append_cons` : a separator tells what stands before it;
* `infix_append_cons`, `lineFeed_infix` : around a separator that the mark does not hold, and around
  the end of a line;
* `pair_infix_append` : a mark of two characters, which may lie across the seam;
* `infix_substitute`, `infix_escape` : replacing and escaping other characters makes no mark and
  undoes none;
* `passes_prefix_iff` : no line begins with a mark if none follows a line feed;
* `cutLast_append` : the last occurrence is where the rest holds no further one.
-/

namespace EdaParts.Text

section
variable {c : Char} {m xs ys : List Char}

theorem prefix_append_cons (hc : c ∉ m) : m <+: xs ++ c :: ys ↔ m <+: xs := by
  constructor
  · rintro ⟨t, ht⟩
    rcases List.append_eq_append_iff.mp ht with ⟨z, rfl, -⟩ | ⟨z, rfl, hz⟩
    · exact List.prefix_append _ _
    · cases z with
      | nil => rw [List.append_nil]
      | cons d z =>
        obtain ⟨rfl, -⟩ := List.cons.inj hz
        exact absurd (by simp) hc
  · exact fun h => h.trans (List.prefix_append _ _)

theorem eq_of_prefix_append_cons (hx : c ∉ xs) (hy : c ∉ ys) {t zs : List Char}
    (h : xs ++ c :: t <+: ys ++ c :: zs) : xs = ys := by
  obtain ⟨u, hu⟩ := h
  rw [List.append_assoc, List.cons_append] at hu
  rcases List.append_eq_append_iff.mp hu with ⟨z, rfl, hz⟩ | ⟨z, rfl, hz⟩
  · cases z with
    | nil => simp
    | cons d z =>
      obtain ⟨rfl, -⟩ := List.cons.inj hz
      exact absurd (by simp) hy
  · cases z with
    | nil => simp
    | cons d z =>
      obtain ⟨rfl, -⟩ := List.cons.inj hz
      exact absurd (by simp) hx

theorem eq_of_append_cons (hx : c ∉ xs) (hy : c ∉ ys) {us vs : List Char}
    (h : us ++ c :: xs = vs ++ c :: ys) : us = vs ∧ xs = ys := by
  rcases List.append_eq_append_iff.mp h with ⟨z, rfl, hz⟩ | ⟨z, rfl, hz⟩
  · cases z with
    | nil => exact ⟨(List.append_nil _).symm, (List.cons.inj hz).2⟩
    | cons d z =>
      obtain ⟨rfl, rfl⟩ := List.cons.inj hz
      exact absurd (by simp) hx
  · cases z with
    | nil => exact ⟨List.append_nil _, (List.cons.inj hz).2.symm⟩
    | cons d z =>
      obtain ⟨rfl, rfl⟩ := List.cons.inj hz
      exact absurd (by simp) hy

/-- A separator cuts no occurrence of a mark that does not hold it. -/
theorem infix_append_cons (hc : c ∉ m) : m <:+: xs ++ c :: ys ↔ m <:+: xs ∨ m <:+: ys := by
  induction xs with
  | nil =>
    rw [List.nil_append, List.infix_cons_iff, List.infix_nil]
    have hp : m <+: c :: ys ↔ m = [] := by
      simpa using @prefix_append_cons c m [] ys hc
    rw [hp]
  | cons d xs ih =>
    rw [List.cons_append, List.infix_cons_iff, List.infix_cons_iff, ih, ← List.cons_append,
      prefix_append_cons hc, or_assoc]

/-- A mark at the beginning of a line occurs before the end of a line, at the beginning of the next
one, or after that. -/
theorem lineFeed_infix (hm : '\n' ∉ m) :
    '\n' :: m <:+: xs ++ '\n' :: ys ↔ '\n' :: m <:+: xs ∨ m <+: ys ∨ '\n' :: m <:+: ys := by
  induction xs with
  | nil => simp [List.infix_cons_iff]
  | cons d xs ih =>
    rw [List.cons_append, List.infix_cons_iff, List.infix_cons_iff, ih, List.cons_prefix_cons,
      List.cons_prefix_cons, prefix_append_cons hm, or_assoc]

/-- Two neighbours stand in one of two parts, or meet at the seam. -/
theorem pair_infix_append {a b : Char} :
    [a, b] <:+: xs ++ ys ↔
      [a, b] <:+: xs ∨ [a, b] <:+: ys ∨ (xs.getLast? = some a ∧ ys.head? = some b) := by
  induction xs with
  | nil => simp
  | cons d xs ih =>
    rw [List.cons_append, List.infix_cons_iff, List.infix_cons_iff, ih]
    cases xs with
    | nil =>
      rw [List.nil_append, List.cons_prefix_cons, List.cons_prefix_cons,
        List.singleton_prefix_iff_head?_eq_some, eq_comm (a := a)]
      simp only [List.infix_nil, List.cons_ne_nil, List.getLast?_singleton, Option.some.injEq,
        List.prefix_nil, List.getLast?_nil, reduceCtorEq, and_false, false_and, false_or, or_false]
      exact or_comm
    | cons e xs =>
      rw [List.getLast?_cons_cons]
      simp [List.cons_prefix_cons, or_assoc]

/-! ## Replaced and escaped characters -/

theorem toList_substitute (old new : Char) (s : String) :
    (substitute old [new] s).toList = s.toList.map fun c => if c = old then new else c := by
  rw [substitute, String.toList_ofList, List.map_eq_flatMap]
  congr 1
  funext c
  split <;> rfl

theorem prefix_map_iff {f : Char → Char} (hf : ∀ c, c ∈ m ∨ f c ∈ m → f c = c) :
    m <+: xs.map f ↔ m <+: xs := by
  induction m generalizing xs with
  | nil => simp
  | cons d m ih =>
    cases xs with
    | nil => simp
    | cons c xs =>
      have hf' : ∀ c, c ∈ m ∨ f c ∈ m → f c = c := by
        intro c hc
        exact hf c (hc.imp (List.mem_cons_of_mem _) (List.mem_cons_of_mem _))
      rw [List.map_cons, List.cons_prefix_cons, List.cons_prefix_cons, ih hf']
      have hd : d = f c ↔ d = c := by
        constructor
        · intro h
          rw [h]
          exact hf c (Or.inr (by simp [h]))
        · intro h
          rw [h]
          exact (hf c (Or.inl (by simp [h]))).symm
      rw [hd]

theorem infix_map_iff {f : Char → Char} (hf : ∀ c, c ∈ m ∨ f c ∈ m → f c = c) :
    m <:+: xs.map f ↔ m <:+: xs := by
  induction xs with
  | nil => rfl
  | cons c xs ih =>
    rw [List.map_cons, List.infix_cons_iff, List.infix_cons_iff, ih, ← List.map_cons,
      prefix_map_iff hf]

/-- Replacing a character by another makes and undoes no occurrence of a mark that holds neither. -/
theorem infix_substitute {old new : Char} (ho : old ∉ m) (hn : new ∉ m) (s : String) :
    m <:+: (substitute old [new] s).toList ↔ m <:+: s.toList := by
  rw [toList_substitute]
  refine infix_map_iff fun c hc => ?_
  split
  · next h =>
    subst h
    rw [if_pos rfl] at hc
    exact absurd (hc.elim id fun h => absurd h hn) ho
  · rfl

theorem escape_cons (c : Char) (cs : List Char) :
    Modern.escape (c :: cs) =
      (if c = '\\' then ['\\', '\\'] else if c = '"' then ['\\', '"'] else [c]) ++
        Modern.escape cs := rfl

theorem prefix_escape_iff (hs : '\\' ∉ m) (hq : '"' ∉ m) :
    m <+: Modern.escape xs ↔ m <+: xs := by
  induction m generalizing xs with
  | nil => simp
  | cons d m ih =>
    have hs' : '\\' ∉ m := fun h => hs (List.mem_cons_of_mem _ h)
    have hq' : '"' ∉ m := fun h => hq (List.mem_cons_of_mem _ h)
    have hds : d ≠ '\\' := fun h => hs (by simp [h])
    have hdq : d ≠ '"' := fun h => hq (by simp [h])
    cases xs with
    | nil => rfl
    | cons c xs =>
      rw [escape_cons]
      split
      · next h => simp [h, hds]
      · split
        · next h => simp [h, hds, hdq]
        · rw [List.singleton_append, List.cons_prefix_cons, List.cons_prefix_cons, ih hs' hq']

/-- Escapes make and undo no occurrence of a mark without quotes and backslashes. -/
theorem infix_escape (hm : m ≠ []) (hs : '\\' ∉ m) (hq : '"' ∉ m) :
    m <:+: Modern.escape xs ↔ m <:+: xs := by
  have hhead : ∀ {c : Char} {ys : List Char}, c ∉ m → ¬ m <+: c :: ys := by
    intro c ys hc h
    rcases List.prefix_cons_iff.mp h with rfl | ⟨t, rfl, -⟩
    · exact hm rfl
    · exact hc (by simp)
  induction xs with
  | nil => rfl
  | cons c xs ih =>
    have hp : m <+: Modern.escape (c :: xs) ↔ m <+: c :: xs := prefix_escape_iff hs hq
    have hescape : m <:+: Modern.escape (c :: xs) ↔
        m <+: Modern.escape (c :: xs) ∨ m <:+: Modern.escape xs := by
      rw [escape_cons]
      split
      · simp [List.infix_cons_iff, hhead hs]
      · split
        · simp [List.infix_cons_iff, hhead hs, hhead hq]
        · rw [List.singleton_append, List.infix_cons_iff]
    exact hescape.trans ((or_congr hp ih).trans List.infix_cons_iff.symm)

/-! ## Lines that begin with a mark -/

/-- In a text of whole lines, no later line begins with a mark just if none follows a line feed. -/
theorem passes_prefix_iff (hne : m ≠ []) (hm : '\n' ∉ m) (hx : beginsLine false xs = true) :
    Passes (m <+: ·) false xs ys ↔ ¬ '\n' :: m <:+: xs := by
  constructor
  · rintro h ⟨s, t, hst⟩
    have hb : beginsLine false (s ++ ['\n']) = true := by simp
    refine h (s ++ ['\n']) (m ++ t) ?_ ?_ hb ?_
    · rw [← hst]
      simp
    · simp [hne]
    · rw [List.append_assoc]
      exact List.prefix_append _ _
  · intro h b r he hr hb hp
    rcases beginsLine_eq_true_iff.mp hb with ⟨-, hf⟩ | ⟨s, rfl⟩
    · exact absurd hf Bool.false_ne_true
    · obtain ⟨r', c, rfl⟩ := (List.eq_nil_or_concat r).resolve_left hr
      rw [List.concat_eq_append] at he hp
      have hc : c = '\n' := by
        rw [he, ← List.append_assoc, beginsLine_append] at hx
        simpa using hx
      subst hc
      rw [List.append_assoc, List.singleton_append, prefix_append_cons hm] at hp
      obtain ⟨t, rfl⟩ := hp
      exact h ⟨s, t ++ ['\n'], by rw [he]; simp⟩

/-! ## The last occurrence -/

theorem cutLast_eq_none_iff : cutLast m xs = none ↔ ¬ m <:+: xs := by
  induction xs with
  | nil => cases m <;> simp [cutLast]
  | cons c xs ih =>
    rw [cutLast, List.infix_cons_iff]
    cases h : cutLast m xs with
    | some p =>
      have hin : m <:+: xs := by
        by_contra hn
        rw [ih.mpr hn] at h
        cases h
      simp [hin]
    | none =>
      have hnot : ¬ m <:+: xs := ih.mp h
      simp [hnot]

theorem append_of_cutLast {before found : List Char} (h : cutLast m xs = some (before, found)) :
    before ++ found = xs := by
  induction xs generalizing before with
  | nil =>
    rw [cutLast] at h
    split at h
    · obtain ⟨rfl, rfl⟩ := Prod.mk.inj (Option.some.inj h)
      rfl
    · cases h
  | cons c xs ih =>
    rw [cutLast] at h
    split at h
    · next b f hcut =>
      obtain ⟨rfl, rfl⟩ := Prod.mk.inj (Option.some.inj h)
      rw [List.cons_append, ih hcut]
    · split at h
      · obtain ⟨rfl, rfl⟩ := Prod.mk.inj (Option.some.inj h)
        rfl
      · cases h

/-- What begins with a mark and holds no further one is where a text is cut. -/
theorem cutLast_append (h : m <+: ys) (hne : ys ≠ []) (ht : ¬ m <:+: ys.tail) :
    cutLast m (xs ++ ys) = some (xs, ys) := by
  induction xs with
  | nil =>
    obtain ⟨c, cs, rfl⟩ := List.exists_cons_of_ne_nil hne
    have hnone : cutLast m cs = none := cutLast_eq_none_iff.mpr ht
    rw [List.nil_append, cutLast, hnone]
    simp [h]
  | cons c xs ih => rw [List.cons_append, cutLast, ih]

end

end EdaParts.Text
