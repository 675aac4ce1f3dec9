import Mathlib.Data.List.Basic
import EdaParts.Store.FileTree

/-!
# Files that are saved and read again

* `get?_put_self`, `get?_put_ne` : what stands where after something is put at a place;
* `walk?_cons_eq_some_iff`, `makeDirectories_cons` : what one name of a way does, from which the rest follows;
* `Leads` : directories stand everywhere on a way; making directories is what makes it so, and a way
  that leads already needs none;
* `save` : writing a file with the directories around it, `CanSave` : nothing is in the way of that;
* `CanSave.save` : what is saved can be read again, and saved again.
-/

namespace EdaParts.FileTree

variable {t t' : FileTree} {p q here : Place} {e : Entry} {n : String} {ns : List String} {path : String}

/-! ## A tree with something put into it -/

theorem lookup_without (entries : List (Place × Entry)) (h : q ≠ p) :
    (entries.filter (·.1 ≠ p)).lookup q = entries.lookup q := by
  induction entries with
  | nil => rfl
  | cons entry entries ih =>
    rw [List.filter_cons]
    split
    · rw [List.lookup_cons, List.lookup_cons, ih]
    · next hp =>
      have hentry : entry.1 = p := by simpa using hp
      have hq : (q == entry.1) = false := by simpa [hentry] using h
      rw [List.lookup_cons, hq, ih]

theorem get?_of_isAbove (h : q.isAbove = true) : t.get? q = some .directory := by
  rw [get?, if_pos h]

theorem get?_put_self (h : p.isAbove = false) : (t.put p e).get? p = some e := by
  rw [get?, h]
  simp [put]

theorem get?_put_ne (h : q ≠ p) : (t.put p e).get? q = t.get? q := by
  have hq : (q == p) = false := by simpa using h
  unfold get? put
  split
  · rfl
  · rw [List.lookup_cons, hq]
    exact lookup_without _ h

theorem isAbove_eq_false (h : t.get? p ≠ some .directory) : p.isAbove = false := by
  rw [Bool.eq_false_iff]
  exact fun ha => h (get?_of_isAbove ha)

theorem get?_put_file_eq_directory_iff {c : Content} (h : t.get? p ≠ some .directory) :
    (t.put p (.file c)).get? q = some .directory ↔ t.get? q = some .directory := by
  by_cases hq : q = p
  · subst hq
    rw [get?_put_self (isAbove_eq_false h)]
    simp [h]
  · rw [get?_put_ne hq]

/-! ## Ways through directories -/

/-- Directories stand everywhere on the way of names from a place. -/
def Leads (t : FileTree) (here : Place) : List String → Prop
  | [] => True
  | n :: ns =>
    if n = ".." then Leads t here.up ns
    else isName n = true ∧ t.get? (here ++ [n]) = some .directory ∧ Leads t (here ++ [n]) ns

theorem leads_up : t.Leads here (".." :: ns) ↔ t.Leads here.up ns := by
  rw [Leads, if_pos rfl]

theorem leads_down (hup : n ≠ "..") : t.Leads here (n :: ns) ↔
    isName n = true ∧ t.get? (here ++ [n]) = some .directory ∧ t.Leads (here ++ [n]) ns := by
  rw [Leads, if_neg hup]

theorem Leads.congr (hd : ∀ q, t.get? q = some .directory → t'.get? q = some .directory)
    (h : t.Leads here ns) : t'.Leads here ns := by
  induction ns generalizing here with
  | nil => trivial
  | cons n ns ih =>
    by_cases hup : n = ".."
    · subst hup
      exact leads_up.mpr (ih (leads_up.mp h))
    · obtain ⟨hname, hdir, hrest⟩ := (leads_down hup).mp h
      exact (leads_down hup).mpr ⟨hname, hd _ hdir, ih hrest⟩

/-- One name of a way is read: it leads up, or down through a directory. The last place need hold none. -/
theorem walk?_cons_eq_some_iff : t.walk? here (n :: ns) = some p ↔
    n = ".." ∧ t.walk? here.up ns = some p ∨
    n ≠ ".." ∧ isName n = true ∧ (ns = [] ∧ p = here ++ [n] ∨
      ns ≠ [] ∧ t.get? (here ++ [n]) = some .directory ∧ t.walk? (here ++ [n]) ns = some p) := by
  rw [walk?]
  by_cases hup : n = ".."
  · simp [hup]
  · by_cases hname : isName n = true
    · cases ns with
      | nil => simp [hup, hname, eq_comm]
      | cons m ns => simp [hup, hname]
    · simp [hup, hname]

/-- One name of a way is made: it leads up, or the making ends, or it leads down to a directory, which stood there or
is put where nothing stood. -/
theorem makeDirectories_cons {b : Bool} (h : t.makeDirectories here (n :: ns) = (t', b)) :
    n = ".." ∧ t.makeDirectories here.up ns = (t', b) ∨
    n ≠ ".." ∧ t' = t ∧ b = false ∨
    n ≠ ".." ∧ isName n = true ∧ ∃ t₁, t₁.makeDirectories (here ++ [n]) ns = (t', b) ∧
      (t.get? (here ++ [n]) = some .directory ∧ t₁ = t ∨
        t.get? (here ++ [n]) = none ∧ t₁ = t.put (here ++ [n]) .directory) := by
  rw [makeDirectories] at h
  split at h
  · next hup => exact .inl ⟨hup, h⟩
  · next hup =>
    refine .inr ?_
    split at h
    · obtain ⟨rfl, rfl⟩ := Prod.mk.inj h
      exact .inl ⟨hup, rfl, rfl⟩
    · next hname =>
      have hname : isName n = true := by simpa using hname
      dsimp only at h
      split at h
      · next hdir => exact .inr ⟨hup, hname, t, h, .inl ⟨hdir, rfl⟩⟩
      · obtain ⟨rfl, rfl⟩ := Prod.mk.inj h
        exact .inl ⟨hup, rfl, rfl⟩
      · next hnone => exact .inr ⟨hup, hname, _, h, .inr ⟨hnone, rfl⟩⟩

theorem makeDirectories_of_leads (h : t.Leads here ns) : t.makeDirectories here ns = (t, true) := by
  induction ns generalizing here with
  | nil => rfl
  | cons n ns ih =>
    rw [makeDirectories]
    by_cases hup : n = ".."
    · subst hup
      rw [if_pos rfl]
      exact ih (leads_up.mp h)
    · obtain ⟨hname, hdir, hrest⟩ := (leads_down hup).mp h
      simp only [hup, hname, hdir, Bool.not_true, Bool.false_eq_true, if_false]
      exact ih hrest

theorem get?_put_directory_of_none (hnone : t.get? p = none) : (t.put p .directory).get? p = some .directory := by
  have hp : t.get? p ≠ some .directory := by simp [hnone]
  exact get?_put_self (isAbove_eq_false hp)

/-- Making directories takes nothing away. -/
theorem get?_makeDirectories {b : Bool} (h : t.makeDirectories here ns = (t', b))
    (hq : t.get? q = some e) : t'.get? q = some e := by
  induction ns generalizing t here with
  | nil =>
    obtain ⟨rfl, -⟩ := Prod.mk.inj h
    exact hq
  | cons n ns ih =>
    rcases makeDirectories_cons h with ⟨-, h⟩ | ⟨-, rfl, -⟩ | ⟨-, -, t₁, h, hstep⟩
    · exact ih h hq
    · exact hq
    · refine ih h ?_
      rcases hstep with ⟨-, rfl⟩ | ⟨hnone, rfl⟩
      · exact hq
      · have hne : q ≠ here ++ [n] := by
          rintro rfl
          rw [hnone] at hq
          cases hq
        rw [get?_put_ne hne, hq]

theorem leads_makeDirectories (h : t.makeDirectories here ns = (t', true)) : t'.Leads here ns := by
  induction ns generalizing t here with
  | nil => trivial
  | cons n ns ih =>
    rcases makeDirectories_cons h with ⟨rfl, h⟩ | ⟨-, -, hfailed⟩ | ⟨hup, hname, t₁, h, hstep⟩
    · exact leads_up.mpr (ih h)
    · cases hfailed
    · have hdir : t₁.get? (here ++ [n]) = some .directory := by
        rcases hstep with ⟨hdir, rfl⟩ | ⟨hnone, rfl⟩
        · exact hdir
        · exact get?_put_directory_of_none hnone
      exact (leads_down hup).mpr ⟨hname, get?_makeDirectories h hdir, ih h⟩

theorem directory_makeDirectories {b : Bool} (h : t.makeDirectories here ns = (t', b)) :
    t'.directory = t.directory := by
  induction ns generalizing t here with
  | nil =>
    obtain ⟨rfl, -⟩ := Prod.mk.inj h
    rfl
  | cons n ns ih =>
    rcases makeDirectories_cons h with ⟨-, h⟩ | ⟨-, rfl, -⟩ | ⟨-, -, t₁, hrest, ⟨-, rfl⟩ | ⟨-, rfl⟩⟩
    · exact ih h
    · rfl
    · exact ih hrest
    · exact (ih hrest).trans rfl

theorem walk?_congr (hd : ∀ q, t.get? q = some .directory ↔ t'.get? q = some .directory) :
    t.walk? here ns = t'.walk? here ns := by
  induction ns generalizing here with
  | nil => rfl
  | cons n ns ih =>
    simp only [walk?, hd, ih]

/-! ## Saving -/

/-- Writes a text to the file of a path, the directories before it made first. -/
def save (t : FileTree) (path text : String) : Except Error Unit × FileTree :=
  match t.createDirectories (parent path) with
  | (t', false) => (.error .io, t')
  | (t', true) =>
    match t'.write? path text with
    | some t'' => (.ok (), t'')
    | none => (.error .io, t')

/-- Nothing is in the way of writing to a path: the directories before it can be made, and it leads
to no directory. -/
def CanSave (t : FileTree) (path : String) : Prop :=
  ∃ t' p, t.createDirectories (parent path) = (t', true) ∧ t'.place? path = some p ∧
    t'.get? p ≠ some .directory

theorem read_of_get?_none (h : (t.place? path).bind t.get? = none) : t.read path = .ok none := by
  unfold read
  rw [h]

/-- Putting a file where no directory stands leads every path where it led. -/
theorem place?_put_file {c : Content} (h : t.get? p ≠ some .directory) :
    (t.put p (.file c)).place? path = t.place? path := by
  have hwalk : (t.put p (.file c)).walk? [] = t.walk? [] :=
    funext fun _ => walk?_congr fun _ => get?_put_file_eq_directory_iff h
  have hnames : (t.put p (.file c)).names? path = t.names? path := rfl
  unfold place?
  rw [hwalk, hnames]

theorem write?_eq_some_iff {text : String} :
    t.write? path text = some t' ↔
      ∃ p, t.place? path = some p ∧ t.get? p ≠ some .directory ∧ t' = t.put p (.file (.text text)) := by
  unfold write?
  cases hplace : t.place? path with
  | none => simp
  | some p =>
    rw [Option.bind_eq_bind, Option.bind_some]
    split
    · next hdir => simp [hdir]
    · next hdir =>
      constructor
      · rintro ⟨rfl⟩
        exact ⟨p, rfl, hdir, rfl⟩
      · rintro ⟨q, hq, -, rfl⟩
        rw [Option.some.inj hq]

theorem read_of_write? {text : String} (h : t.write? path text = some t') :
    t'.read path = .ok (some text) := by
  obtain ⟨p, hplace, hp, rfl⟩ := write?_eq_some_iff.mp h
  unfold read
  rw [place?_put_file hp, hplace, Option.bind_some, get?_put_self (isAbove_eq_false hp)]

theorem read_of_save {text : String} (h : t.save path text = (.ok (), t')) :
    t'.read path = .ok (some text) := by
  unfold save at h
  split at h
  · cases h
  · split at h
    · next t'' hwrite =>
      obtain ⟨-, rfl⟩ := Prod.mk.inj h
      exact read_of_write? hwrite
    · cases h

/-- **What is saved can be read again, and saved over.** -/
theorem CanSave.save (h : t.CanSave path) (text : String) :
    ∃ t', t.save path text = (.ok (), t') ∧ t'.read path = .ok (some text) ∧ t'.CanSave path := by
  obtain ⟨t₁, p, hmade, hplace, hp⟩ := h
  have hnames : ∃ ns, t₁.names? (parent path) = some ns ∧ t₁.Leads [] ns := by
    unfold createDirectories at hmade
    split at hmade
    · next ns hns =>
      refine ⟨ns, ?_, leads_makeDirectories hmade⟩
      unfold names? at hns ⊢
      rw [directory_makeDirectories hmade]
      exact hns
    · cases hmade
  obtain ⟨ns, hns, hleads⟩ := hnames
  let t₂ := t₁.put p (.file (.text text))
  have hwrite : t₁.write? path text = some t₂ := write?_eq_some_iff.mpr ⟨p, hplace, hp, rfl⟩
  have hget₂ : t₂.get? p = some (.file (.text text)) := get?_put_self (isAbove_eq_false hp)
  refine ⟨t₂, ?_, read_of_write? hwrite, t₂, p, ?_, (place?_put_file hp).trans hplace, ?_⟩
  · unfold FileTree.save
    rw [hmade]
    simp only [hwrite]
  · have hns₂ : t₂.names? (parent path) = some ns := hns
    rw [createDirectories, hns₂]
    exact makeDirectories_of_leads (hleads.congr fun q => (get?_put_file_eq_directory_iff hp).mpr)
  · rw [hget₂]
    simp

/-- Only the file system keeps a text from being saved. -/
theorem save_eq_error {text : String} {err : Error} (h : t.save path text = (.error err, t')) :
    err = .io := by
  unfold FileTree.save at h
  split at h
  · exact (Except.error.inj (Prod.mk.inj h).1).symm
  · split at h
    · cases h
    · exact (Except.error.inj (Prod.mk.inj h).1).symm

theorem read_eq_error {err : Error} (h : t.read path = .error err) : err = .io := by
  unfold read at h
  split at h
  · cases h
  · cases h
  · exact (Except.error.inj h).symm

end EdaParts.FileTree
