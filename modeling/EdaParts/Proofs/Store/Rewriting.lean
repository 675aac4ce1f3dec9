import EdaParts.Proofs.Store.Insertion
import EdaParts.Proofs.Store.Operations

/-!
# Storing an entry again

An entry that is stored over itself leaves the library as it is just if the search takes it whole. What
keeps the search from that is a text of the symbol with a line like the last one of an entry.

* `here?_render` : what the search takes of the entry of a symbol that names itself in its fields;
* `insert_textOf_nil`, `insert_textOf_singleton` : storing the entry in a library without entries, and
  storing it again;
* `rewrite_unchanged_iff` : which components can be stored twice without a change.
-/

namespace EdaParts

open Text EntryPattern

namespace SymbolLibrary

variable (l : SymbolLibrary) {s : Symbol}

/-- The line feed and the beginning of the line that ends an entry. -/
def breakMark (l : SymbolLibrary) (name : String) : List Char :=
  '\n' :: (ofName l.schema name).ending

/-- The search takes an entry whole just if no text of its symbol, which names itself in its fields, has
a line like the last one of an entry. -/
theorem here?_render (hname : s.name ∈ s.bodyTexts) (hdesignator : s.designator ∈ s.bodyTexts)
    (ys : List Char) :
    ∃ m a, (ofName l.schema s.name).here? ((s.render l.schema).toList ++ ys) = some (m, a) ∧
      ((m, a) = ((s.render l.schema).toList, ys) ↔
        ∀ x ∈ s.texts, ¬ l.breakMark s.name <:+: x.toList) := by
  have htexts : ∀ x, x ∈ s.texts ↔ x ∈ s.bodyTexts := by
    intro x
    simp only [Symbol.texts, List.mem_cons]
    constructor
    · rintro (rfl | rfl | hx)
      · exact hname
      · exact hdesignator
      · exact hx
    · exact fun hx => Or.inr (Or.inr hx)
  have hnone : ∀ y ∈ s.bodyTexts, (¬ ∃ x ∈ y :: s.bodyTexts, l.breakMark s.name <:+: x.toList) ↔
      ∀ x ∈ s.texts, ¬ l.breakMark s.name <:+: x.toList := by
    intro y hy
    constructor
    · exact fun h x hx hin => h ⟨x, List.mem_cons_of_mem _ ((htexts x).mp hx), hin⟩
    · rintro h ⟨x, hx, hin⟩
      rcases List.mem_cons.mp hx with rfl | hx
      · exact h x ((htexts x).mpr hy) hin
      · exact h x ((htexts x).mpr hx) hin
  unfold breakMark at hnone ⊢
  cases hl : l.schema with
  | legacy =>
    rw [hl] at hnone
    obtain ⟨m, a, hm, hwhole⟩ := Legacy.here?_symbolEntry s ys
    exact ⟨m, a, hm, hwhole.trans (hnone _ hdesignator)⟩
  | modern =>
    rw [hl] at hnone
    obtain ⟨m, a, hm, hwhole⟩ := Modern.here?_symbolEntry s ys
    exact ⟨m, a, hm, hwhole.trans (hnone _ hname)⟩

/-- Any entry can be stored in a library without entries. -/
theorem insert_textOf_nil (s : Symbol) (overwrite : Bool) :
    l.insert s.name (s.render l.schema) (l.textOf []) overwrite = .ok (l.textOf [s], false) := by
  have hnone : (ofName l.schema s.name).split? (l.textOf []) = none := by
    rw [split?, l.splitFrom?_textOf_nil]
    rfl
  exact l.insert_textOf_of_split?_eq_none hnone overwrite

/-- Stored again, it takes the place of what the search takes for it. -/
theorem insert_textOf_singleton {m a : List Char}
    (h : (ofName l.schema s.name).here? ((s.render l.schema).toList ++ l.footer.toList) = some (m, a)) :
    (ofName l.schema s.name).split? (l.textOf [s]) =
        some (l.header, String.ofList m, String.ofList a) ∧
      l.insert s.name (s.render l.schema) (l.textOf [s]) true =
        .ok (l.header ++ s.render l.schema ++ String.ofList a, true) := by
  have htext : (l.textOf [s]).toList =
      l.header.toList ++ ((s.render l.schema).toList ++ l.footer.toList) := by
    rw [toList_textOf]
    simp [entriesOf]
  have hsplit : (ofName l.schema s.name).split? (l.textOf [s]) =
      some (l.header, String.ofList m, String.ofList a) := by
    rw [split?, htext, splitFrom?_append (l.passes_header _ _) l.beginsLine_header h]
    simp
  refine ⟨hsplit, ?_⟩
  unfold insert
  simp only [l.contents_textOf, hsplit, if_true]

/-- Storing the entry of a symbol twice, where there was no file, leaves the second time what it left the
first time just if no text of the symbol has a line like the last one of an entry; and just then the
search takes the entry and nothing else. -/
theorem write_twice (hname : s.name ∈ s.bodyTexts) (hdesignator : s.designator ∈ s.bodyTexts)
    {t : FileTree} (habsent : t.read l.path = .ok none) (hsave : t.CanSave l.path) (overwrite : Bool) :
    ∃ t₁ t₂ text₂, (l.write s.name (s.render l.schema) overwrite).exec t = (.ok (), t₁) ∧
      t₁.read l.path = .ok (some (l.textOf [s])) ∧
      (l.write s.name (s.render l.schema) true).exec t₁ = (.ok (), t₂) ∧
      t₂.read l.path = .ok (some text₂) ∧
      (text₂ = l.textOf [s] ↔ ∀ x ∈ s.texts, ¬ l.breakMark s.name <:+: x.toList) ∧
      ((ofName l.schema s.name).split? (l.textOf [s]) = some (l.header, s.render l.schema, l.footer) ↔
        ∀ x ∈ s.texts, ¬ l.breakMark s.name <:+: x.toList) := by
  obtain ⟨m, a, hhere, hwhole⟩ := l.here?_render hname hdesignator l.footer.toList
  obtain ⟨hsplit, hinsert⟩ := l.insert_textOf_singleton hhere
  have hfirst := (l.insert_congr (l.contents_empty.trans (l.contents_textOf []).symm)).trans
    (l.insert_textOf_nil s overwrite)
  obtain ⟨t₁, hexec₁, hread₁, hsave₁⟩ := l.exec_write_of_insert habsent hfirst hsave
  obtain ⟨t₂, hexec₂, hread₂, -⟩ := l.exec_write_of_insert hread₁ hinsert hsave₁
  have htext : l.textOf [s] = l.header ++ s.render l.schema ++ l.footer := by simp [textOf]
  have hparts : m ++ a = (s.render l.schema).toList ++ l.footer.toList := append_of_here? hhere
  have hafter : a = l.footer.toList ↔ (m, a) = ((s.render l.schema).toList, l.footer.toList) := by
    constructor
    · rintro rfl
      rw [List.append_cancel_right hparts]
    · exact fun h => (Prod.mk.inj h).2
  refine ⟨t₁, t₂, _, hexec₁, hread₁, hexec₂, hread₂, ?_, ?_⟩
  · rw [← hwhole, ← hafter, htext, ← String.toList_inj]
    simp
  · rw [hsplit, ← hwhole]
    simp [← String.toList_inj]

end SymbolLibrary

/-! ## Symbols of components -/

namespace Component

variable {c : Component} {o : Options} {s : Symbol}

/-- A generated symbol names itself in its fields. -/
theorem texts_of_toSymbol (h : (c.toSymbol o).run.value = .ok s) :
    s.name = c.info.name ∧ s.name ∈ s.bodyTexts ∧ s.designator ∈ s.bodyTexts := by
  obtain ⟨source, rfl⟩ := eq_drawnSymbol h
  refine ⟨rfl, ?_, ?_⟩ <;>
    simp [drawnSymbol, Sheet.finish, Sheet.fields, Symbol.bodyTexts]

/-- **Storing the symbol of a component twice** in a library that had no file changes nothing the second
time just if no text of the symbol has a line like the last one of an entry; and just then the search
for its name takes the entry and nothing else. -/
theorem rewrite_unchanged_iff (hs : (c.toSymbol o).run.value = .ok s) (l : SymbolLibrary)
    (hl : l.schema = o.schema) {t : FileTree} (habsent : t.read l.path = .ok none)
    (hsave : t.CanSave l.path) (overwrite : Bool) :
    ∃ entry t₁ t₂ text₂, (c.generateSymbol o).run.value = .ok entry ∧
      (l.write c.info.name entry overwrite).exec t = (.ok (), t₁) ∧
      t₁.read l.path = .ok (some (l.header ++ entry ++ l.footer)) ∧
      (l.write c.info.name entry true).exec t₁ = (.ok (), t₂) ∧
      t₂.read l.path = .ok (some text₂) ∧
      (text₂ = l.header ++ entry ++ l.footer ↔
        ∀ x ∈ s.texts, ¬ l.breakMark c.info.name <:+: x.toList) ∧
      ((ofName l.schema c.info.name).split? (l.header ++ entry ++ l.footer) =
          some (l.header, entry, l.footer) ↔
        ∀ x ∈ s.texts, ¬ l.breakMark c.info.name <:+: x.toList) := by
  obtain ⟨hname, hvalue, hdesignator⟩ := texts_of_toSymbol hs
  have hgenerate : (c.generateSymbol o).run.value = .ok (s.render l.schema) := by
    rw [value_generateSymbol, hs, hl]
    rfl
  have htext : l.textOf [s] = l.header ++ s.render l.schema ++ l.footer := by
    simp [SymbolLibrary.textOf]
  obtain ⟨t₁, t₂, text₂, hwrites⟩ := l.write_twice hvalue hdesignator habsent hsave overwrite
  rw [hname, htext] at hwrites
  exact ⟨s.render l.schema, t₁, t₂, text₂, hgenerate, hwrites⟩

/-- A component with nothing but a name and a description. -/
def described (description : String) : Component :=
  ⟨{ name := "R1", description }, some ⟨[], .zero, {}⟩, none⟩

theorem toSymbol_described (description : String) :
    ((described description).toSymbol {}).run.value =
      .ok ((described description).drawnSymbol {} ⟨[], .zero, {}⟩) := by
  have hname : Text.isBlankText "R1" = false := by decide
  rw [value_toSymbol, Options.validate_default]
  simp [described, hname]

/-- A description on one line. -/
theorem rewrite_unchanged_described :
    let l := SymbolLibrary.parts .modern
    ∃ entry t₁ t₂, ((described "a resistor (10k)").generateSymbol {}).run.value = .ok entry ∧
      (l.write "R1" entry false).exec (.empty "out") = (.ok (), t₁) ∧
      (l.write "R1" entry true).exec t₁ = (.ok (), t₂) ∧ t₂.read l.path = t₁.read l.path := by
  intro l
  obtain ⟨entry, t₁, t₂, text₂, hentry, hexec₁, hread₁, hexec₂, hread₂, hsame, -⟩ :=
    rewrite_unchanged_iff (toSymbol_described "a resistor (10k)") l rfl
      (SymbolLibrary.read_parts _) (SymbolLibrary.canSave_parts _) false
  refine ⟨entry, t₁, t₂, hentry, hexec₁, hexec₂, ?_⟩
  rw [hread₁, hread₂, hsame.mpr (by decide +kernel)]

/-- A description with a line that begins like the last one of an entry is stored once more each
time. -/
theorem rewrite_changes_broken_description :
    let l := SymbolLibrary.parts .modern
    ∃ entry t₁ t₂, ((described "a\n)\nb").generateSymbol {}).run.value = .ok entry ∧
      (l.write "R1" entry false).exec (.empty "out") = (.ok (), t₁) ∧
      (l.write "R1" entry true).exec t₁ = (.ok (), t₂) ∧ t₂.read l.path ≠ t₁.read l.path := by
  intro l
  have hs := toSymbol_described "a\n)\nb"
  obtain ⟨-, hvalue, hdesignator⟩ := texts_of_toSymbol hs
  obtain ⟨t₁, t₂, text₂, hexec₁, hread₁, hexec₂, hread₂, hsame, -⟩ :=
    l.write_twice hvalue hdesignator (SymbolLibrary.read_parts _) (SymbolLibrary.canSave_parts _) false
  refine ⟨_, t₁, t₂, ?_, hexec₁, hexec₂, ?_⟩
  · rw [value_generateSymbol, hs]
    rfl
  · have hbroken : ¬ ∀ x ∈ ((described "a\n)\nb").drawnSymbol {} ⟨[], .zero, {}⟩).texts,
        ¬ ['\n', ')'] <:+: x.toList := by decide +kernel
    rw [hread₁, hread₂]
    intro h
    exact hbroken (hsame.mp (Option.some.inj (Except.ok.inj h)))

end Component

end EdaParts
