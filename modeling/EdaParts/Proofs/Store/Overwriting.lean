import EdaParts.Proofs.Store.Report

/-!
# Leave to replace an entry

Both kinds of library tell whether they have an entry of a name, and store an entry with leave to replace the one
that is there or without it. They look for it in different ways: a footprint by its file, a symbol within the text of
the library, where one of blanks only counts as empty when it is asked and as a library without entries when it is
written. Both ways come to the same.

* `Shelf` : what both kinds offer;
* `Shelf.HonoursOverwrite` : what the leave to replace an entry means;
* `SymbolLibrary.exec_write_eq_alreadyExists_iff`, `FootprintLibrary.exec_write_eq_alreadyExists_iff` : when an entry
  is refused because it is there;
* `overwrite_honoured` : both kinds of library keep to that meaning.
-/

namespace EdaParts

/-- What a library of named entries offers, and the wording by which it refuses to replace one. -/
structure Shelf where
  contains (name : String) : Storing Bool
  write (name entry : String) (overwrite : Bool) : Storing Unit
  label (name : String) : String

namespace Shelf

/-- What it means to store an entry with leave to replace another one, or without. -/
structure HonoursOverwrite (s : Shelf) : Prop where
  /-- Looking for an entry changes nothing. -/
  looks : ∀ name t, ((s.contains name).exec t).2 = t
  /-- Without leave an entry is refused just if one of its name is there. -/
  refuses : ∀ name entry t,
    (∃ e t', (s.write name entry false).exec t = (.error (.alreadyExists e), t')) ↔
      (s.contains name).exec t = (.ok true, t)
  /-- With leave it never is. -/
  replaces : ∀ name entry t e t', (s.write name entry true).exec t ≠ (.error (.alreadyExists e), t')
  /-- The refusal names the entry. -/
  names : ∀ name entry overwrite t e t',
    (s.write name entry overwrite).exec t = (.error (.alreadyExists e), t') → e = s.label name
  /-- What fails for another reason than the file system changes nothing. -/
  keeps : ∀ name entry overwrite t e t', e ≠ .io →
    (s.write name entry overwrite).exec t = (.error e, t') → t' = t

variable {s : Shelf}

/-- It is enough to know when an entry is refused because it is there, and what other failures leave. -/
theorem honoursOverwrite_of (hlooks : ∀ name t, ((s.contains name).exec t).2 = t)
    (hrefuses : ∀ name entry overwrite t e t',
      (s.write name entry overwrite).exec t = (.error (.alreadyExists e), t') ↔
        t' = t ∧ overwrite = false ∧ e = s.label name ∧ (s.contains name).exec t = (.ok true, t))
    (hkeeps : ∀ name entry overwrite t e t', e ≠ .io →
      (s.write name entry overwrite).exec t = (.error e, t') → t' = t) :
    s.HonoursOverwrite where
  looks := hlooks
  refuses name entry t := by
    constructor
    · rintro ⟨e, t', h⟩
      exact ((hrefuses name entry false t e t').mp h).2.2.2
    · intro h
      exact ⟨s.label name, t, (hrefuses name entry false t _ t).mpr ⟨rfl, rfl, rfl, h⟩⟩
  replaces name entry t e t' h := Bool.noConfusion ((hrefuses name entry true t e t').mp h).2.1
  names name entry overwrite t e t' h := ((hrefuses name entry overwrite t e t').mp h).2.2.1
  keeps := hkeeps

end Shelf

namespace SymbolLibrary

variable (l : SymbolLibrary) {name entry e : String} {overwrite : Bool} {t t' : FileTree}

/-- The library as a shelf of symbols. -/
def shelf : Shelf where
  contains := l.contains
  write := l.write
  label name := s!"symbol '{name}' in " ++ l.path

/-- The library has an entry of a name just if there is a text and it has one. -/
theorem exec_contains_eq_true_iff :
    (l.contains name).exec t = (.ok true, t) ↔
      ∃ text, t.read l.path = .ok text ∧
        ((EntryPattern.ofName l.schema name).split? (text.getD "")).isSome = true := by
  rw [exec_contains]
  cases t.read l.path <;> simp [Except.map]

/-- An entry is refused because it is there just if that is so and it may not be replaced. -/
theorem exec_write_eq_alreadyExists_iff :
    (l.write name entry overwrite).exec t = (.error (.alreadyExists e), t') ↔
      t' = t ∧ overwrite = false ∧ e = l.shelf.label name ∧ (l.contains name).exec t = (.ok true, t) := by
  have hio : Error.alreadyExists e ≠ .io := nofun
  rw [l.exec_write_eq_error_iff hio, l.exec_contains_eq_true_iff]
  simp only [insert_eq_error_iff, isSome_split?_contents]
  constructor
  · rintro ⟨rfl, text, hread, ⟨hsome, hover, he⟩ | ⟨-, he⟩⟩
    · exact ⟨rfl, hover, Error.alreadyExists.inj he, text, hread, hsome⟩
    · cases he
  · rintro ⟨rfl, hover, rfl, text, hread, hsome⟩
    exact ⟨rfl, text, hread, .inl ⟨hsome, hover, rfl⟩⟩

theorem honoursOverwrite_shelf : l.shelf.HonoursOverwrite := by
  apply Shelf.honoursOverwrite_of
  · exact fun name t => congrArg Prod.snd (l.exec_contains name t)
  · exact fun _ _ _ _ _ _ => l.exec_write_eq_alreadyExists_iff
  · exact fun _ _ _ _ _ _ he h => ((l.exec_write_eq_error_iff he).mp h).1

end SymbolLibrary

namespace FootprintLibrary

variable (l : FootprintLibrary) {name entry e : String} {overwrite : Bool} {t t' : FileTree} {error : Error}

/-- The library as a shelf of footprints. -/
def shelf : Shelf where
  contains := l.contains
  write := l.write
  label name := "footprint '" ++ l.path name ++ "'"

/-- A footprint that cannot be stored for another reason than the file system is there already, and may not be
replaced. -/
theorem exec_write_eq_error_iff (he : error ≠ .io) :
    (l.write name entry overwrite).exec t = (.error error, t') ↔
      t' = t ∧ overwrite = false ∧ error = .alreadyExists (l.shelf.label name) ∧
        t.exists? (l.path name) = true := by
  have hwrite := l.exec_write name entry overwrite t
  by_cases hkept : t.exists? (l.path name) = true ∧ overwrite = false
  · rw [if_pos hkept] at hwrite
    rw [hwrite, Prod.mk.injEq, Except.error.injEq]
    constructor
    · rintro ⟨rfl, rfl⟩
      exact ⟨rfl, hkept.2, rfl, hkept.1⟩
    · rintro ⟨rfl, -, rfl, -⟩
      exact ⟨rfl, rfl⟩
  · rw [if_neg hkept] at hwrite
    refine iff_of_false ?_ fun h => hkept ⟨h.2.2.2, h.2.1⟩
    obtain ⟨t₁, hio⟩ | ⟨t₁, hok, -⟩ := hwrite
    · rw [hio]
      exact fun h => he (Except.error.inj (Prod.mk.inj h).1).symm
    · rw [hok]
      exact fun h => nomatch (Prod.mk.inj h).1

/-- An entry is refused because it is there just if that is so and it may not be replaced. -/
theorem exec_write_eq_alreadyExists_iff :
    (l.write name entry overwrite).exec t = (.error (.alreadyExists e), t') ↔
      t' = t ∧ overwrite = false ∧ e = l.shelf.label name ∧ (l.contains name).exec t = (.ok true, t) := by
  have hio : Error.alreadyExists e ≠ .io := nofun
  rw [l.exec_write_eq_error_iff hio, exec_contains]
  simp

theorem honoursOverwrite_shelf : l.shelf.HonoursOverwrite := by
  apply Shelf.honoursOverwrite_of
  · exact fun name t => congrArg Prod.snd (l.exec_contains name t)
  · exact fun _ _ _ _ _ _ => l.exec_write_eq_alreadyExists_iff
  · exact fun _ _ _ _ _ _ he h => ((l.exec_write_eq_error_iff he).mp h).1

end FootprintLibrary

/-- **Both kinds of library keep to the leave to replace an entry**, whatever the tree of files holds. -/
theorem overwrite_honoured (symbols : SymbolLibrary) (footprints : FootprintLibrary) :
    symbols.shelf.HonoursOverwrite ∧ footprints.shelf.HonoursOverwrite :=
  ⟨symbols.honoursOverwrite_shelf, footprints.honoursOverwrite_shelf⟩

end EdaParts
