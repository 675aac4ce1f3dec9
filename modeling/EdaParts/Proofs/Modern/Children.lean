import EdaParts.Proofs.Modern.Printing

/-!
# The children of a library

A symbol library says one list: a word and its children, some of them symbols.

* `IsLibrary` : a text says a library with some children;
* `putChild` : children with one stored, in the place of the first one of its name or else at the end;
* `Amid` : a child may begin after a text;
* `IsLibrary.splits` : a list that begins there is a child, and cuts the library in two.
-/

namespace EdaParts.Modern

/-! ## Children -/

def symbolHead : List Char := "symbol".toList

def libraryHead : List Char := "kicad_symbol_lib".toList

def Datum.isSymbol (name : String) : Datum → Bool
  | .list (.word head :: .text n :: _) => head = symbolHead ∧ n = name.toList
  | _ => false

theorem Datum.isSymbol_iff {name : String} {d : Datum} : d.isSymbol name = true ↔
    ∃ rest, d = .list (.word symbolHead :: .text name.toList :: rest) := by
  unfold isSymbol
  split
  · simp
  · next hne =>
    constructor
    · intro h
      cases h
    · rintro ⟨rest, rfl⟩
      exact absurd rfl (hne _ _ _)

/-- A text says a library with these children, and nothing else. -/
def IsLibrary (text : List Char) (cs : List Datum) : Prop :=
  Reads text [.list (.word libraryHead :: cs)]

/-- Children with one in the place of the first symbol of its name, or at the end if there is none. -/
def putChild (name : String) (d : Datum) : List Datum → List Datum
  | [] => [d]
  | c :: cs => if c.isSymbol name then d :: cs else c :: putChild name d cs

section
variable {name : String} {d c : Datum} {cs as bs : List Datum}

theorem putChild_of_not_mem (h : ∀ c ∈ cs, c.isSymbol name = false) :
    putChild name d cs = cs ++ [d] := by
  induction cs with
  | nil => rfl
  | cons c cs ih =>
    obtain ⟨hc, hcs⟩ := List.forall_mem_cons.mp h
    rw [putChild, hc, ih hcs]
    rfl

theorem putChild_append (h : ∀ c ∈ as, c.isSymbol name = false) (hc : c.isSymbol name = true) :
    putChild name d (as ++ c :: bs) = as ++ d :: bs := by
  induction as with
  | nil => rw [List.nil_append, putChild, hc, if_pos rfl, List.nil_append]
  | cons a as ih =>
    obtain ⟨ha, has⟩ := List.forall_mem_cons.mp h
    rw [List.cons_append, putChild, ha, ih has]
    rfl

theorem filter_not_putChild (hd : d.isSymbol name = true) :
    (putChild name d cs).filter (fun c => !c.isSymbol name) =
      cs.filter (fun c => !c.isSymbol name) := by
  induction cs with
  | nil => simp [putChild, hd]
  | cons c cs ih =>
    rw [putChild]
    split
    · next hc => simp [hc, hd]
    · rw [List.filter_cons, List.filter_cons, ih]

/-- Where there was at most one symbol of the name, there is just the one stored. -/
theorem filter_putChild (hd : d.isSymbol name = true)
    (h : (cs.filter (·.isSymbol name)).length ≤ 1) :
    (putChild name d cs).filter (·.isSymbol name) = [d] := by
  induction cs with
  | nil => simp [putChild, hd]
  | cons c cs ih =>
    rw [putChild]
    rw [List.filter_cons] at h
    split
    · next hc =>
      rw [if_pos hc, List.length_cons] at h
      have hnil : cs.filter (·.isSymbol name) = [] := List.length_eq_zero_iff.mp (by omega)
      rw [List.filter_cons, if_pos hd, hnil]
    · next hc =>
      rw [if_neg hc] at h
      rw [List.filter_cons, if_neg hc, ih h]

end

/-! ## Places in a library -/

/-- After the text, items of an outermost list have been read and another one may begin. -/
def Amid (xs : List Char) (items : List Datum) : Prop :=
  ∃ front inner, xs = front ++ '(' :: inner ∧ Reads front [] ∧ Reads inner items

section
variable {text xs ys zs : List Char} {cs items ds : List Datum}

/-- A library is what stands in its parentheses, with blanks around it. -/
theorem isLibrary_iff : IsLibrary text cs ↔ ∃ front inner back,
    text = front ++ '(' :: (inner ++ ')' :: back) ∧ Reads front [] ∧
      Reads inner (.word libraryHead :: cs) ∧ Reads back [] := by
  constructor
  · intro h
    obtain ⟨front, back, inner, as, bs, rfl, hfront, hinner, hback, hds⟩ :=
      h.origin List.mem_cons_self
    have hlen := congrArg List.length hds
    simp only [List.length_append, List.length_cons, List.length_nil] at hlen
    obtain rfl : as = [] := List.length_eq_zero_iff.mp (by omega)
    obtain rfl : bs = [] := List.length_eq_zero_iff.mp (by omega)
    exact ⟨front, inner, back, rfl, hfront, hinner, hback⟩
  · rintro ⟨front, inner, back, rfl, hfront, hinner, hback⟩
    exact hfront.blank_append ((reads_list_iff hinner).mpr ⟨[], hback, rfl⟩)

/-- Items that are read amid a library, and the parenthesis that closes it, make it whole. -/
theorem Amid.isLibrary (hxs : Amid xs items) (hys : Reads ys ds) (hapart : Apart ys)
    (hzs : Reads zs []) (hds : items ++ ds = .word libraryHead :: cs) :
    IsLibrary (xs ++ (ys ++ ')' :: zs)) cs := by
  obtain ⟨front, inner, rfl, hfront, hinner⟩ := hxs
  refine isLibrary_iff.mpr ⟨front, inner ++ ys, zs, by simp, hfront, ?_, hzs⟩
  rw [← hds]
  exact hinner.append hys hapart

/-- **A list that begins amid a library is a child of it**, closed before the library is. -/
theorem IsLibrary.splits (h : IsLibrary (xs ++ '(' :: ys) cs) (hxs : Amid xs items) :
    ∃ inner zs q post back, ys = inner ++ ')' :: (zs ++ ')' :: back) ∧ Reads inner q ∧
      Reads zs post ∧ Reads back [] ∧
      .word libraryHead :: cs = items ++ .list q :: post := by
  obtain ⟨front, before, rfl, hfront, hbefore⟩ := hxs
  rw [List.append_assoc, List.cons_append] at h
  obtain ⟨inside, back, q, bs, hinside, hq, hback, hds⟩ := h.opened hfront
  obtain ⟨hq', rfl⟩ : Datum.list (.word libraryHead :: cs) = .list q ∧ [] = bs :=
    List.cons.inj hds
  cases hq'
  obtain ⟨rest, rfl, hrest⟩ := hbefore.exists_append hq hinside
  cases rest with
  | nil => cases hrest
  | cons c rest =>
    obtain ⟨rfl, rfl⟩ := List.cons.inj hrest
    obtain ⟨inner, zs, q, post, rfl, hinner, hzs, hds⟩ := hq.opened hbefore
    exact ⟨inner, zs, q, post, back, by simp, hinner, hzs, hback, hds⟩

/-- A list among the items before is one that begins amid the list. -/
theorem Amid.origin {q : List Datum} (hxs : Amid xs items) (hq : .list q ∈ items) :
    ∃ ys inner zs before, xs = ys ++ '(' :: (inner ++ ')' :: zs) ∧ Amid ys before ∧ Reads inner q := by
  obtain ⟨front, inside, rfl, hfront, hinside⟩ := hxs
  obtain ⟨ys, zs, inner, as, bs, rfl, hys, hinner, -, -⟩ := hinside.origin hq
  exact ⟨front ++ '(' :: ys, inner, zs, as, by simp, ⟨front, ys, rfl, hfront, hys⟩, hinner⟩

end

end EdaParts.Modern
