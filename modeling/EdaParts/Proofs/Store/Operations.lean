import EdaParts.Proofs.Store.Frames
import EdaParts.Store.Component

/-!
# What storing does

A storing operation run on a tree of files gives an outcome and the tree it leaves; the notices are
left out here.

* `Storing.exec` : outcome and tree, with one equation for each way operations are put together;
* `SymbolLibrary.exec_write`, `FootprintLibrary.exec_write` : storing an entry, as a decision on the
  texts that are there followed by saving a file.
-/

namespace EdaParts

namespace Storing

variable {α β : Type}

/-- The outcome of an operation on a tree, and the tree it leaves. -/
def exec (m : Storing α) (t : FileTree) : Except Error α × FileTree :=
  (m.run.run t).value

@[simp] theorem exec_pure (a : α) (t : FileTree) : (pure a : Storing α).exec t = (.ok a, t) := rfl

@[simp] theorem exec_throw (e : Error) (t : FileTree) :
    (throw e : Storing α).exec t = (.error e, t) := rfl

theorem exec_bind (m : Storing α) (f : α → Storing β) (t : FileTree) :
    (m >>= f).exec t =
      match m.exec t with
      | (.ok a, t') => (f a).exec t'
      | (.error e, t') => (.error e, t') := by
  have hrun : (m >>= f).exec t =
      (match (m.run.run t).value with
      | (.ok a, t') => (f a).exec t'
      | (.error e, t') => (.error e, t')) := by
    unfold exec
    rw [ExceptT.run_bind, StateT.run_bind, Logged.value_bind]
    generalize (m.run.run t).value = out
    obtain ⟨_ | _, _⟩ := out <;> rfl
  exact hrun

theorem exec_bind_ok {m : Storing α} {f : α → Storing β} {t t' : FileTree} {a : α}
    (h : m.exec t = (.ok a, t')) : (m >>= f).exec t = (f a).exec t' := by
  rw [exec_bind, h]

@[simp] theorem exec_get (t : FileTree) : (getThe FileTree : Storing FileTree).exec t = (.ok t, t) :=
  rfl

@[simp] theorem exec_set (s t : FileTree) : (set s : Storing PUnit).exec t = (.ok ⟨⟩, s) := rfl

@[simp] theorem exec_lift (x : Except Error α) (t : FileTree) :
    (liftM x : Storing α).exec t = (x, t) := rfl

@[simp] theorem exec_ofOutcome (o : Outcome α) (t : FileTree) :
    (ofOutcome o).exec t = (o.run.value, t) := rfl

@[simp] theorem exec_note (level : Level) (text : String) (t : FileTree) :
    (note level text).exec t = (.ok (), t) := rfl

theorem exec_tryCatch (m : Storing α) (f : Error → Storing α) (t : FileTree) :
    (tryCatch m f).exec t =
      match m.exec t with
      | (.ok a, t') => (.ok a, t')
      | (.error e, t') => (f e).exec t' := by
  unfold exec
  rw [ExceptT.run_tryCatch, StateT.run_bind, Logged.value_bind]
  generalize (m.run.run t).value = out
  obtain ⟨_ | _, _⟩ := out <;> rfl

theorem exec_createDirectories (path : String) (t : FileTree) :
    (createDirectories path).exec t =
      (if (t.createDirectories path).2 then .ok () else .error .io, (t.createDirectories path).1) := by
  have hrun : (createDirectories path).exec t =
      (if !(t.createDirectories path).2 then throw .io else pure () : Storing Unit).exec
        (t.createDirectories path).1 := rfl
  rw [hrun]
  cases (t.createDirectories path).2 <;> rfl

theorem exec_writeFile (path text : String) (t : FileTree) :
    (writeFile path text).exec t =
      match t.write? path text with
      | some t' => (.ok (), t')
      | none => (.error .io, t) := by
  have hrun : (writeFile path text).exec t =
      (match t.write? path text with
      | some t' => set t'
      | none => throw .io : Storing Unit).exec t := rfl
  rw [hrun]
  cases t.write? path text <;> rfl

/-- A file is saved by making its directories and then writing it. -/
theorem exec_save (path text : String) (t : FileTree) :
    (do createDirectories (FileTree.parent path); writeFile path text : Storing Unit).exec t =
      t.save path text := by
  unfold FileTree.save
  rw [exec_bind, exec_createDirectories]
  obtain ⟨t', _ | _⟩ := t.createDirectories (FileTree.parent path)
  · rfl
  · exact exec_writeFile path text t'

/-- Keeping what is there turns one refusal into a status, and nothing else. -/
theorem exec_keepExisting (name : String) (write : Storing Unit) (t : FileTree) :
    (keepExisting name write).exec t =
      match write.exec t with
      | (.ok (), t') => (.ok (.written name), t')
      | (.error (.alreadyExists _), t') => (.ok (.kept name), t')
      | (.error e, t') => (.error e, t') := by
  rw [keepExisting, exec_tryCatch, exec_bind]
  obtain ⟨e | _, t'⟩ := write.exec t
  · cases e <;> rfl
  · rfl

theorem exec_keepExisting_eq_error_iff {name : String} {write : Storing Unit} {t t' : FileTree}
    {e : Error} :
    (keepExisting name write).exec t = (.error e, t') ↔
      write.exec t = (.error e, t') ∧ ∀ entry, e ≠ .alreadyExists entry := by
  rw [exec_keepExisting]
  rcases write.exec t with ⟨err | _, t₁⟩
  · cases err <;> simp +contextual [eq_comm]
  · simp

/-- Footprint and symbol are stored in the same way: if asked for, if the component has one and if its text can
be made. -/
def artifact (asked lacks : Bool) (made : Outcome String) (keep : String → Storing Status) : Storing Status := do
  if !asked then return .disabled
  if lacks then return .missing
  let text ← ofOutcome made
  keep text

theorem exec_artifact (asked lacks : Bool) (made : Outcome String) (keep : String → Storing Status) (t : FileTree) :
    (artifact asked lacks made keep).exec t =
      if asked = false then (.ok .disabled, t)
      else if lacks = true then (.ok .missing, t)
      else
        match made.run.value with
        | .error e => (.error e, t)
        | .ok text => (keep text).exec t := by
  unfold artifact
  cases asked with
  | false => rfl
  | true =>
    cases lacks with
    | true => rfl
    | false =>
      simp only [Bool.not_true, Bool.false_eq_true, Bool.true_eq_false, if_false]
      rw [exec_bind, exec_ofOutcome]
      cases made.run.value <;> rfl

theorem exec_artifact_eq_ok {asked lacks : Bool} {made : Outcome String} {keep : String → Storing Status}
    {t t' : FileTree} {status : Status} (h : (artifact asked lacks made keep).exec t = (.ok status, t')) :
    asked = false ∧ status = .disabled ∧ t' = t ∨
    asked = true ∧ lacks = true ∧ status = .missing ∧ t' = t ∨
    asked = true ∧ lacks = false ∧ ∃ text, made.run.value = .ok text ∧ (keep text).exec t = (.ok status, t') := by
  rw [exec_artifact] at h
  split at h
  · next hoff =>
    obtain ⟨hstatus, rfl⟩ := Prod.mk.inj h
    exact .inl ⟨hoff, (Except.ok.inj hstatus).symm, rfl⟩
  · next hon =>
    rw [Bool.not_eq_false] at hon
    split at h
    · next hlacks =>
      obtain ⟨hstatus, rfl⟩ := Prod.mk.inj h
      exact .inr (.inl ⟨hon, hlacks, (Except.ok.inj hstatus).symm, rfl⟩)
    · next hhas =>
      split at h
      · cases h
      · next text hmade => exact .inr (.inr ⟨hon, Bool.not_eq_true _ ▸ hhas, text, hmade, h⟩)

end Storing

namespace SymbolLibrary

variable (l : SymbolLibrary)

theorem exec_read (t : FileTree) :
    l.read.exec t = ((t.read l.path).map fun text => text.getD "", t) := by
  rw [read, Storing.exec_bind_ok (Storing.exec_get t), Storing.exec_bind, Storing.exec_lift]
  cases t.read l.path <;> rfl

theorem exec_contains (name : String) (t : FileTree) :
    (l.contains name).exec t =
      ((t.read l.path).map fun text =>
        ((EntryPattern.ofName l.schema name).split? (text.getD "")).isSome, t) := by
  rw [contains, Storing.exec_bind, exec_read]
  cases t.read l.path <;> rfl

/-- **Storing a symbol** fails before it does anything, or saves the text that the insertion gives. -/
theorem exec_write (name entry : String) (overwrite : Bool) (t : FileTree) :
    (l.write name entry overwrite).exec t =
      match t.read l.path with
      | .error e => (.error e, t)
      | .ok text =>
        match l.insert name entry (text.getD "") overwrite with
        | .error e => (.error e, t)
        | .ok (new, _) => t.save l.path new := by
  rw [write, Storing.exec_bind, exec_read]
  cases t.read l.path with
  | error e => rfl
  | ok text =>
    simp only [Except.map]
    rw [Storing.exec_bind, Storing.exec_lift]
    cases l.insert name entry (text.getD "") overwrite with
    | error e => rfl
    | ok r =>
      obtain ⟨new, replaced⟩ := r
      simp only
      rw [Storing.exec_bind, Storing.exec_note]
      exact Storing.exec_save l.path new t

/-- A symbol that can be inserted is stored if nothing is in the way of saving the library. -/
theorem exec_write_of_insert {name entry new : String} {overwrite replaced : Bool} {t : FileTree}
    {text : Option String} (hread : t.read l.path = .ok text)
    (hinsert : l.insert name entry (text.getD "") overwrite = .ok (new, replaced))
    (hsave : t.CanSave l.path) :
    ∃ t', (l.write name entry overwrite).exec t = (.ok (), t') ∧
      t'.read l.path = .ok (some new) ∧ t'.CanSave l.path := by
  obtain ⟨t', hok, hread', hsave'⟩ := hsave.save new
  refine ⟨t', ?_, hread', hsave'⟩
  rw [exec_write, hread]
  simp only [hinsert]
  exact hok

/-- **A symbol that cannot be stored** for another reason than the file system leaves the tree as it
is. -/
theorem exec_write_eq_error_iff {name entry : String} {overwrite : Bool} {t t' : FileTree} {e : Error}
    (he : e ≠ .io) :
    (l.write name entry overwrite).exec t = (.error e, t') ↔
      t' = t ∧ ∃ text, t.read l.path = .ok text ∧
        l.insert name entry (text.getD "") overwrite = .error e := by
  rw [exec_write]
  cases hread : t.read l.path with
  | error e' =>
    have he' := FileTree.read_eq_error hread
    simp [he', he.symm]
  | ok text =>
    cases hinsert : l.insert name entry (text.getD "") overwrite with
    | error e' =>
      constructor
      · intro h
        simp only [hinsert] at h
        obtain ⟨herr, rfl⟩ := Prod.mk.inj h
        rw [Except.error.inj herr] at hinsert
        exact ⟨rfl, text, rfl, hinsert⟩
      · rintro ⟨rfl, text', htext, herr⟩
        cases htext
        simp only [herr]
    | ok r =>
      constructor
      · intro h
        simp only [hinsert] at h
        exact absurd (FileTree.save_eq_error h) he
      · rintro ⟨-, text', htext, herr⟩
        cases htext
        rw [hinsert] at herr
        cases herr

/-! ## A library to begin with -/

/-- A library in a directory that holds nothing yet. -/
def parts (schema : Schema) : SymbolLibrary := ⟨⟨"out", "parts", schema⟩⟩

theorem read_parts (schema : Schema) :
    (FileTree.empty "out").read (parts schema).path = .ok none := by
  cases schema <;> exact FileTree.read_of_get?_none (by decide)

theorem canSave_parts (schema : Schema) : (FileTree.empty "out").CanSave (parts schema).path := by
  cases schema with
  | legacy =>
    exact ⟨.empty "out", ["parts.lib"], by decide, by decide, by decide⟩
  | modern =>
    exact ⟨.empty "out", ["parts.kicad_sym"], by decide, by decide,
      by decide⟩

end SymbolLibrary

namespace FootprintLibrary

variable (l : FootprintLibrary)

theorem exec_contains (name : String) (t : FileTree) :
    (l.contains name).exec t = (.ok (t.exists? (l.path name)), t) := rfl

/-- Storing a footprint makes the directories of the library one after the other and writes a file then. -/
theorem exec_write_eq (name content : String) (overwrite : Bool) (t : FileTree) :
    (l.write name content overwrite).exec t =
      if (t.exists? (l.path name) && !overwrite) = true then
        (.error (.alreadyExists ("footprint '" ++ l.path name ++ "'")), t)
      else
        match t.createDirectories l.folder with
        | (t₁, false) => (.error .io, t₁)
        | (t₁, true) =>
          match t₁.createDirectories l.modelFolder with
          | (t₂, false) => (.error .io, t₂)
          | (t₂, true) =>
            match t₂.write? (l.path name) content with
            | some t₃ => (.ok (), t₃)
            | none => (.error .io, t₂) := by
  unfold write
  rw [Storing.exec_bind_ok (l.exec_contains name t)]
  cases t.exists? (l.path name) && !overwrite with
  | true => rfl
  | false =>
    simp only [Bool.false_eq_true, if_false, setUp, bind_assoc, Storing.exec_bind,
      Storing.exec_createDirectories, Storing.exec_writeFile, Storing.exec_note]
    rcases t.createDirectories l.folder with ⟨t₁, _ | _⟩
    · rfl
    · rcases hmodels : t₁.createDirectories l.modelFolder with ⟨t₂, _ | _⟩
      · simp [hmodels]
      · cases hwrite : t₂.write? (l.path name) content <;> simp [hmodels, hwrite]

/-- **Storing a footprint** is refused for its name and does nothing, or fails with the file system, or
leaves the footprint where it belongs and every other file as it was. -/
theorem exec_write (name content : String) (overwrite : Bool) (t : FileTree) :
    if t.exists? (l.path name) = true ∧ overwrite = false then
      (l.write name content overwrite).exec t =
        (.error (.alreadyExists ("footprint '" ++ l.path name ++ "'")), t)
    else
      (∃ t', (l.write name content overwrite).exec t = (.error .io, t')) ∨
        ∃ t', (l.write name content overwrite).exec t = (.ok (), t') ∧
          t.Stores t' (l.path name) content := by
  rw [exec_write_eq]
  by_cases hkept : t.exists? (l.path name) = true ∧ overwrite = false
  · rw [if_pos hkept, if_pos (by simp [hkept])]
  · rw [if_neg hkept, if_neg (by simpa using hkept)]
    rcases hfolder : t.createDirectories l.folder with ⟨t₁, _ | _⟩
    · exact Or.inl ⟨t₁, rfl⟩
    · rcases hmodels : t₁.createDirectories l.modelFolder with ⟨t₂, _ | _⟩
      · exact Or.inl ⟨t₂, by simp [hmodels]⟩
      · cases hwrite : t₂.write? (l.path name) content with
        | none => exact Or.inl ⟨t₂, by simp [hmodels, hwrite]⟩
        | some t₃ =>
          refine Or.inr ⟨t₃, by simp [hmodels, hwrite], ?_⟩
          apply (FileTree.keeps_createDirectories hfolder).stores
          apply (FileTree.keeps_createDirectories hmodels).stores
          exact FileTree.stores_of_write? hwrite

end FootprintLibrary

end EdaParts
