import EdaParts.Proofs.Store.Failure
import EdaParts.Proofs.Store.Insertion

/-!
# What a report says

A component that was stored comes with a report, one status for its footprint and one for its symbol.

* `Status.Tells` : when a status is which, by what was asked for, what the component has and what was
  stored before;
* `SymbolLibrary.insert_eq_ok` : a stored entry stands between two parts of what was there;
* `storeSymbol_eq_ok` : what storing a symbol did, if it did not fail;
* `store_report` : the report tells the truth, and nothing is lost that may not be replaced;
* `store_loses_hidden` : but what is hidden may be lost. The way to it is made after it is looked for.
-/

namespace EdaParts

open EntryPattern FileTree

/-- A status says what became of an artifact: whether it was asked for, whether the component has one, and
whether one of its name was stored before, which may be replaced or not. -/
structure Status.Tells (status : Status) (name : String) (asked has overwrite : Bool) (stored : Prop) :
    Prop where
  written : ∀ n, status = .written n ↔
    n = name ∧ asked = true ∧ has = true ∧ (¬ stored ∨ overwrite = true)
  kept : ∀ n, status = .kept n ↔
    n = name ∧ asked = true ∧ has = true ∧ stored ∧ overwrite = false
  missing : status = .missing ↔ asked = true ∧ has = false
  disabled : status = .disabled ↔ asked = false

namespace Status

variable {name : String} {asked has overwrite : Bool} {stored : Prop}

theorem tells_disabled (h : asked = false) : disabled.Tells name asked has overwrite stored := by
  constructor <;> simp [h]

theorem tells_missing (ha : asked = true) (hh : has = false) :
    missing.Tells name asked has overwrite stored := by
  constructor <;> simp [ha, hh]

theorem tells_kept (ha : asked = true) (hh : has = true) (hs : stored) (ho : overwrite = false) :
    (kept name).Tells name asked has overwrite stored := by
  constructor <;> simp [ha, hh, hs, ho, eq_comm]

theorem tells_written (ha : asked = true) (hh : has = true) (hs : ¬ (stored ∧ overwrite = false)) :
    (written name).Tells name asked has overwrite stored := by
  have hor : ¬ stored ∨ overwrite = true := by
    rw [not_and_or, Bool.not_eq_false] at hs
    exact hs
  constructor
  · intro n
    simp [ha, hh, hor, eq_comm]
  · intro n
    simp only [reduceCtorEq, false_iff]
    exact fun h => hs h.2.2.2
  · simp [hh]
  · simp [ha]

theorem tells_of_ite [Decidable stored] {status : Status} {A B : Prop} (ha : asked = true) (hh : has = true)
    (h : if stored ∧ overwrite = false then status = .kept name ∧ A else status = .written name ∧ B) :
    status.Tells name asked has overwrite stored := by
  split at h
  · next hkept =>
    rw [h.1]
    exact tells_kept ha hh hkept.1 hkept.2
  · next hkept =>
    rw [h.1]
    exact tells_written ha hh hkept

end Status

/-! ## Entries in libraries -/

namespace SymbolLibrary

variable (l : SymbolLibrary) {name entry text new : String} {overwrite replaced : Bool} {n : String}

theorem not_opens_of_blank {cs : List Char} (h : ∀ c ∈ cs, Text.isBlank c = true) :
    ¬ (ofName l.schema n).Opens cs := by
  have hopening : ∀ o ∈ (ofName l.schema n).openings, ∃ c ∈ o, Text.isBlank c = false := by
    cases l.schema with
    | legacy =>
      rw [Legacy.openings_ofName]
      simp only [List.mem_cons, List.not_mem_nil, or_false, forall_eq_or_imp, forall_eq]
      exact ⟨⟨'#', by simp [Legacy.opening], by decide⟩, ⟨'D', by simp, by decide⟩⟩
    | modern =>
      rw [Modern.openings_ofName]
      simp only [List.mem_cons, List.not_mem_nil, or_false, forall_eq]
      exact ⟨'(', by simp [Modern.opening], by decide⟩
  rintro ⟨o, ho, hp⟩
  obtain ⟨c, hc, hblank⟩ := hopening o ho
  rw [h c (hp.subset hc)] at hblank
  cases hblank

/-- What a text contains has an entry of a name just if the text has. -/
theorem isSome_split?_contents (n text : String) :
    ((ofName l.schema n).split? (l.contents text)).isSome =
      ((ofName l.schema n).split? text).isSome := by
  unfold contents
  split
  · next hblank =>
    have hempty : (ofName l.schema n).split? (l.header ++ l.footer) = none := by
      have htext : l.header ++ l.footer = l.textOf [] := by simp [textOf]
      rw [htext, split?, l.splitFrom?_textOf_nil]
      rfl
    have hnone : (ofName l.schema n).split? text = none := by
      have hno : Text.NoLine (ofName l.schema n).Opens true text.toList := by
        intro b r hr _ hopens
        refine l.not_opens_of_blank (fun c hc => ?_) hopens
        apply List.all_eq_true.mp hblank c
        rw [hr]
        exact List.mem_append_right b hc
      rw [split?, splitFrom?_eq_none hno]
      rfl
    rw [hempty, hnone]
  · rfl

/-- **An entry that is stored** stands between two parts of what the text contained. Between them stood
the entry that it replaced, if there was one. -/
theorem insert_eq_ok (h : l.insert name entry text overwrite = .ok (new, replaced)) :
    ¬ (((ofName l.schema name).split? text).isSome = true ∧ overwrite = false) ∧
      ∃ before old after, l.contents text = before ++ old ++ after ∧ new = before ++ entry ++ after ∧
        (overwrite = false → old = "") := by
  rw [← l.isSome_split?_contents]
  unfold insert at h
  dsimp only at h
  cases hsplit : (ofName l.schema name).split? (l.contents text) with
  | some found =>
    obtain ⟨before, old, after⟩ := found
    simp only [hsplit] at h
    cases overwrite with
    | false => cases h
    | true =>
      refine ⟨by simp, before, old, after, append_of_split? hsplit, ?_, by simp⟩
      exact ((Prod.mk.inj (Except.ok.inj h)).1).symm
  | none =>
    simp only [hsplit] at h
    cases hcut : Text.cutLast l.footer.toList (l.contents text).toList with
    | none =>
      rw [hcut] at h
      cases h
    | some found =>
      obtain ⟨before, after⟩ := found
      simp only [hcut] at h
      refine ⟨by simp, String.ofList before, "", String.ofList after, ?_, ?_, fun _ => rfl⟩
      · rw [← String.toList_inj, ← Text.append_of_cutLast hcut]
        simp
      · exact ((Prod.mk.inj (Except.ok.inj h)).1).symm

theorem insert_eq_alreadyExists {e : String}
    (h : l.insert name entry text overwrite = .error (.alreadyExists e)) :
    ((ofName l.schema name).split? text).isSome = true ∧ overwrite = false := by
  rcases l.insert_eq_error_iff.mp h with ⟨hsome, ho, -⟩ | ⟨-, he⟩
  · exact ⟨l.isSome_split?_contents name text ▸ hsome, ho⟩
  · cases he

/-- What keeping an existing entry leaves of storing one, if it does not fail. -/
theorem exec_keep_eq_ok {t t' : FileTree} {status : Status}
    (h : (Storing.keepExisting name (l.write name entry overwrite)).exec t = (.ok status, t')) :
    ∃ text, t.read l.path = .ok text ∧
      if ((ofName l.schema name).split? (text.getD "")).isSome = true ∧ overwrite = false then
        status = .kept name ∧ t' = t
      else
        status = .written name ∧ ∃ before old after,
          l.contents (text.getD "") = before ++ old ++ after ∧ (overwrite = false → old = "") ∧
          t.Stores t' l.path (before ++ entry ++ after) := by
  rw [Storing.exec_keepExisting, exec_write] at h
  cases hread : t.read l.path with
  | error e =>
    rw [hread, FileTree.read_eq_error hread] at h
    cases h
  | ok text =>
    refine ⟨text, rfl, ?_⟩
    cases hinsert : l.insert name entry (text.getD "") overwrite with
    | error e =>
      simp only [hread, hinsert] at h
      cases e with
      | alreadyExists e =>
        obtain ⟨hstatus, rfl⟩ := Prod.mk.inj h
        rw [if_pos (l.insert_eq_alreadyExists hinsert)]
        exact ⟨(Except.ok.inj hstatus).symm, rfl⟩
      | _ => cases h
    | ok r =>
      obtain ⟨new, replaced⟩ := r
      simp only [hread, hinsert] at h
      obtain ⟨hnot, before, old, after, hcontents, rfl, hold⟩ := l.insert_eq_ok hinsert
      rw [if_neg hnot]
      rcases hsave : t.save l.path (before ++ entry ++ after) with ⟨e | ⟨⟩, t₂⟩
      · obtain rfl := FileTree.save_eq_error hsave
        simp only [hsave] at h
        cases h
      · simp only [hsave] at h
        obtain ⟨hstatus, rfl⟩ := Prod.mk.inj h
        exact ⟨(Except.ok.inj hstatus).symm, before, old, after, hcontents, hold, stores_of_save hsave⟩

end SymbolLibrary

namespace Component

variable {c : Component} {o : Options} {directory : String} {t t₁ t' : FileTree} {p q : Place}

/-- **What storing a symbol did**, if it did not fail. -/
theorem storeSymbol_eq_ok {status : Status}
    (h : (c.storeSymbol directory o).exec t = (.ok status, t')) :
    o.symbol = false ∧ status = .disabled ∧ t' = t ∨
    o.symbol = true ∧ c.symbol.isSome = false ∧ status = .missing ∧ t' = t ∨
    o.symbol = true ∧ c.symbol.isSome = true ∧ ∃ entry, (c.generateSymbol o).run.value = .ok entry ∧
      ∃ text, t.read (symbols directory o).path = .ok text ∧
        if ((ofName (symbols directory o).schema c.info.name).split? (text.getD "")).isSome = true ∧
            o.overwrite = false then
          status = .kept c.info.name ∧ t' = t
        else
          status = .written c.info.name ∧ ∃ before old after,
            (symbols directory o).contents (text.getD "") = before ++ old ++ after ∧
            (o.overwrite = false → old = "") ∧
            t.Stores t' (symbols directory o).path (before ++ entry ++ after) := by
  rw [storeSymbol_eq] at h
  refine (Storing.exec_artifact_eq_ok h).imp_right (Or.imp ?_ ?_)
  · rintro ⟨hon, hnone, hmissing⟩
    exact ⟨hon, by simpa using hnone, hmissing⟩
  · rintro ⟨hon, hsome, entry, hentry, hkeep⟩
    have hsome : c.symbol.isSome = true := by simpa [Option.isSome_iff_ne_none] using hsome
    exact ⟨hon, hsome, entry, hentry, (symbols directory o).exec_keep_eq_ok hkeep⟩

/-! ## Two different files -/

/-- The file of a footprint is not that of the symbols: their names end in different ways. -/
theorem place_ne (name : String) (hp : t.place? ((footprints directory o).path name) = some p)
    (hq : t.place? (symbols directory o).path = some q) (hfile : t.fileAt p ≠ none ∨ t.fileAt q ≠ none) :
    p ≠ q := by
  rintro rfl
  have hfile : t.fileAt p ≠ none := hfile.elim id id
  have hjoin : ∀ dir path ending, ∃ start,
      FileTree.joinPath dir (path ++ "." ++ ending) = start ++ ("." ++ ending) := by
    intro dir path ending
    unfold FileTree.joinPath
    split
    · exact ⟨path, by rw [String.append_assoc]⟩
    · exact ⟨dir ++ "/" ++ path, by simp only [String.append_assoc]⟩
  obtain ⟨start, hstart⟩ := hjoin (footprints directory o).folder name o.schema.footprintExtension
  obtain ⟨start', hstart'⟩ := hjoin directory o.libraryName o.schema.symbolExtension
  have hp : t.place? (start ++ ("." ++ o.schema.footprintExtension)) = some p := by
    rw [← hstart]
    exact hp
  have hq : t.place? (start' ++ ("." ++ o.schema.symbolExtension)) = some p := by
    rw [← hstart']
    exact hq
  obtain ⟨front, hfront⟩ : ∃ front, p.getLast? = some (front ++ ("." ++ o.schema.footprintExtension)) := by
    cases hs : o.schema <;> rw [hs] at hp <;>
      exact exists_getLast?_of_ending (d := 'd') (by decide) (by decide) (by decide) hp hfile
  obtain ⟨front', hfront'⟩ : ∃ front', p.getLast? = some (front' ++ ("." ++ o.schema.symbolExtension)) := by
    cases hs : o.schema with
    | legacy =>
      rw [hs] at hq
      exact exists_getLast?_of_ending (d := 'b') (by decide) (by decide) (by decide) hq hfile
    | modern =>
      rw [hs] at hq
      exact exists_getLast?_of_ending (d := 'm') (by decide) (by decide) (by decide) hq hfile
  rw [hfront, Option.some.injEq, ← String.toList_inj] at hfront'
  have hlast := congrArg List.getLast? hfront'
  revert hlast
  cases o.schema <;> simp [Schema.footprintExtension, Schema.symbolExtension]

/-! ## The two steps -/

/-- The status of a footprint tells what storing it did. -/
theorem storeFootprint_tells {status : Status}
    (h : (c.storeFootprint directory o).exec t = (.ok status, t')) :
    status.Tells c.info.footprintName o.footprint c.footprint.isSome o.overwrite
      (((footprints directory o).contains c.info.footprintName).exec t = (.ok true, t)) := by
  have hstored : (((footprints directory o).contains c.info.footprintName).exec t = (.ok true, t)) ↔
      t.exists? ((footprints directory o).path c.info.footprintName) = true := by
    rw [FootprintLibrary.exec_contains]
    simp
  rw [hstored]
  rcases storeFootprint_eq_ok h with ⟨hoff, rfl, -⟩ | ⟨hon, hnone, rfl, -⟩ | ⟨hon, hsome, hdone⟩
  · exact Status.tells_disabled hoff
  · exact Status.tells_missing hon hnone
  · exact Status.tells_of_ite hon hsome hdone

/-- The status of a symbol tells what storing it did, where the library could be read as it can be now. -/
theorem storeSymbol_tells {status : Status} (h : (c.storeSymbol directory o).exec t₁ = (.ok status, t'))
    (hread : ∀ text, t₁.read (symbols directory o).path = .ok text →
      t.read (symbols directory o).path = .ok text) :
    status.Tells c.info.name o.symbol c.symbol.isSome o.overwrite
      (((symbols directory o).contains c.info.name).exec t = (.ok true, t)) := by
  rcases storeSymbol_eq_ok h with
    ⟨hoff, rfl, -⟩ | ⟨hon, hnone, rfl, -⟩ | ⟨hon, hsome, entry, -, text, htext, hdone⟩
  · exact Status.tells_disabled hoff
  · exact Status.tells_missing hon hnone
  · have hstored : (((symbols directory o).contains c.info.name).exec t = (.ok true, t)) ↔
        ((ofName (symbols directory o).schema c.info.name).split? (text.getD "")).isSome = true := by
      rw [SymbolLibrary.exec_contains, hread text htext]
      simp [Except.map]
    rw [hstored]
    exact Status.tells_of_ite hon hsome hdone

/-- A symbol that is not told to be written left the tree as it was. -/
theorem storeSymbol_stores {status : Status}
    (h : (c.storeSymbol directory o).exec t = (.ok status, t')) :
    (∀ n, status ≠ .written n) ∧ t' = t ∨
      status = .written c.info.name ∧ ∃ entry text before old after,
        (c.generateSymbol o).run.value = .ok entry ∧
        t.read (symbols directory o).path = .ok text ∧
        (symbols directory o).contents (text.getD "") = before ++ old ++ after ∧
        (o.overwrite = false → old = "") ∧
        t.Stores t' (symbols directory o).path (before ++ entry ++ after) := by
  rcases storeSymbol_eq_ok h with
    ⟨-, rfl, rfl⟩ | ⟨-, -, rfl, rfl⟩ | ⟨-, -, entry, hentry, text, htext, hdone⟩
  · exact Or.inl ⟨by simp, rfl⟩
  · exact Or.inl ⟨by simp, rfl⟩
  · split at hdone
    · obtain ⟨rfl, rfl⟩ := hdone
      exact Or.inl ⟨by simp, rfl⟩
    · obtain ⟨rfl, before, old, after, hcontents, hold, hstores⟩ := hdone
      exact Or.inr ⟨rfl, entry, text, before, old, after, hentry, htext, hcontents, hold, hstores⟩

theorem store_eq_ok {report : Report} (h : (c.store directory o).exec t = (.ok report, t')) :
    ∃ t₁, (c.storeFootprint directory o).exec t = (.ok report.footprint, t₁) ∧
      (c.storeSymbol directory o).exec t₁ = (.ok report.symbol, t') := by
  rw [exec_store] at h
  cases hvalid : o.validate with
  | error e =>
    rw [hvalid] at h
    cases h
  | ok u =>
    rw [hvalid] at h
    rcases hfootprint : (c.storeFootprint directory o).exec t with ⟨e | footprint, t₁⟩
    · simp only [hfootprint] at h
      cases h
    · rcases hsymbol : (c.storeSymbol directory o).exec t₁ with ⟨e | symbol, t₂⟩
      · simp only [hfootprint, hsymbol] at h
        cases h
      · simp only [hfootprint, hsymbol, Prod.mk.injEq, Except.ok.injEq] at h
        obtain ⟨rfl, rfl⟩ := h
        exact ⟨t₁, rfl, hsymbol⟩

/-- Storing a footprint changes no file but that of the footprint. -/
theorem storeFootprint_keeps {status : Status}
    (h : (c.storeFootprint directory o).exec t = (.ok status, t')) :
    t.Keeps t' fun p => t'.place? ((footprints directory o).path c.info.footprintName) = some p ∧
      t'.fileAt p ≠ none := by
  rcases storeFootprint_stores h with ⟨-, rfl⟩ | ⟨-, content, -, hstores, -⟩
  · exact Keeps.refl _ _
  · exact hstores.keeps

theorem storeSymbol_keeps {status : Status}
    (h : (c.storeSymbol directory o).exec t = (.ok status, t')) :
    t.Keeps t' fun p => t'.place? (symbols directory o).path = some p ∧ t'.fileAt p ≠ none := by
  rcases storeSymbol_stores h with ⟨-, rfl⟩ | ⟨-, entry, text, before, old, after, -, -, -, -, hstores⟩
  · exact Keeps.refl _ _
  · exact hstores.keeps

/-- A file that stood there before both steps is kept by the second one, if nothing may be replaced. But the
library of symbols may have one more entry. -/
theorem storeSymbol_adds {status : Status} {changes : Place → Prop} {content : Content}
    (h : (c.storeSymbol directory o).exec t₁ = (.ok status, t')) (hkeeps : t.Keeps t₁ changes)
    (hsymbol : ¬ t.Hides (symbols directory o).path)
    (hlibrary : t₁.fileOf (symbols directory o).path = t.fileOf (symbols directory o).path)
    (ho : o.overwrite = false) (hp : t.fileAt p = some content) (hp₁ : t₁.fileAt p = some content) :
    t'.fileAt p = some content ∨
      t.place? (symbols directory o).path = some p ∧
        ∃ old entry before after, content = .text old ∧
          (c.generateSymbol o).run.value = .ok entry ∧
          (Text.isBlankText old = false → old = before ++ after) ∧
          t'.fileAt p = some (.text (before ++ entry ++ after)) := by
  have hboth := hkeeps.trans (storeSymbol_keeps h)
  rcases storeSymbol_stores h with
    ⟨-, rfl⟩ | ⟨-, entry, text, before, old, after, hentry, htext, hcontents, hold, q, hq, hfile, hothers⟩
  · exact Or.inl hp₁
  · by_cases hpq : p = q
    · subst hpq
      refine Or.inr ?_
      -- The library stood there before, and its text is what was read.
      have hlead : t.fileOf (symbols directory o).path = some content := by
        rw [← hp, ← hboth.fileAt_of_place? hsymbol hq]
      obtain ⟨p', hp', -⟩ := Option.bind_eq_some_iff.mp hlead
      have hplace : t.place? (symbols directory o).path = some p := by
        rw [hp', ← hboth.place? hp', hq]
      rw [← hlibrary] at hlead
      obtain ⟨s, rfl, rfl⟩ := exists_text_of_read hlead htext
      rw [hold ho, String.append_empty] at hcontents
      refine ⟨hplace, s, entry, before, after, rfl, hentry, fun hblank => ?_, hfile⟩
      rw [← hcontents, Option.getD_some, SymbolLibrary.contents, hblank]
      rfl
    · refine Or.inl ?_
      rw [hothers.files p hpq, hp₁]

/-! ## The report -/

/-- **The report tells the truth, and overwriting nothing destroys nothing**, if no file is hidden by a
directory that is still missing. A footprint or a symbol is told to be written just if it was asked for and
there, and not stored before or to be replaced; then it stands where it belongs. Otherwise its file is as it
was. And if nothing may be replaced, every file keeps what it holds, but the library of symbols may have
one more entry. -/
theorem store_report {report : Report}
    (hfootprint : ¬ t.Hides ((footprints directory o).path c.info.footprintName))
    (hsymbol : ¬ t.Hides (symbols directory o).path)
    (h : (c.store directory o).exec t = (.ok report, t')) :
    report.footprint.Tells c.info.footprintName o.footprint c.footprint.isSome o.overwrite
      (((footprints directory o).contains c.info.footprintName).exec t = (.ok true, t)) ∧
    (∀ n, report.footprint = .written n →
      ∃ text, (c.generateFootprint o (c.resolver? o)).run.value = .ok text ∧
        t'.read ((footprints directory o).path n) = .ok (some text)) ∧
    ((∀ n, report.footprint ≠ .written n) →
      t'.fileOf ((footprints directory o).path c.info.footprintName) =
        t.fileOf ((footprints directory o).path c.info.footprintName)) ∧
    report.symbol.Tells c.info.name o.symbol c.symbol.isSome o.overwrite
      (((symbols directory o).contains c.info.name).exec t = (.ok true, t)) ∧
    (∀ n, report.symbol = .written n →
      ∃ entry before after, (c.generateSymbol o).run.value = .ok entry ∧
        t'.read (symbols directory o).path = .ok (some (before ++ entry ++ after))) ∧
    ((∀ n, report.symbol ≠ .written n) →
      t'.fileOf (symbols directory o).path = t.fileOf (symbols directory o).path) ∧
    (o.overwrite = false → ∀ p content, t.fileAt p = some content →
      t'.fileAt p = some content ∨
        t.place? (symbols directory o).path = some p ∧
          ∃ old entry before after, content = .text old ∧
            (c.generateSymbol o).run.value = .ok entry ∧
            (Text.isBlankText old = false → old = before ++ after) ∧
            t'.fileAt p = some (.text (before ++ entry ++ after))) := by
  obtain ⟨t₁, hf, hs⟩ := store_eq_ok h
  -- Neither step touches the file of the other one.
  have hfirst := storeFootprint_keeps hf
  have hsecond := storeSymbol_keeps hs
  have hlibrary : t₁.fileOf (symbols directory o).path = t.fileOf (symbols directory o).path := by
    apply hfirst.fileOf hsymbol
    intro p hp hw
    exact place_ne c.info.footprintName hw.1 hp (Or.inl hw.2) rfl
  refine ⟨storeFootprint_tells hf, ?_, ?_, ?_, ?_, ?_, ?_⟩
  · intro n hn
    rcases storeFootprint_stores hf with ⟨hnot, -⟩ | ⟨hname, content, hcontent, ⟨p, hp, hfile, -⟩, -⟩
    · exact absurd hn (hnot n)
    · rw [hname] at hn
      obtain rfl := Status.written.inj hn
      have hp' := hsecond.place? hp
      refine ⟨content, hcontent, ?_⟩
      rw [read_eq_some_iff, fileOf, hp', Option.bind_some, ← hfile]
      apply hsecond.files
      exact fun hw => place_ne c.info.footprintName hp' hw.1 (Or.inr hw.2) rfl
  · intro hnot
    rcases storeFootprint_stores hf with ⟨-, rfl⟩ | ⟨hname, -⟩
    · apply hsecond.fileOf hfootprint
      exact fun p hp hw => place_ne c.info.footprintName hp hw.1 (Or.inr hw.2) rfl
    · exact absurd hname (hnot _)
  · apply storeSymbol_tells hs
    intro text htext
    exact hfirst.read_eq_ok hlibrary htext
  · intro n hn
    rcases storeSymbol_stores hs with
      ⟨hnot, -⟩ | ⟨-, entry, text, before, old, after, hentry, -, -, -, hstores⟩
    · exact absurd hn (hnot n)
    · exact ⟨entry, before, after, hentry, hstores.read⟩
  · intro hnot
    rcases storeSymbol_stores hs with ⟨-, rfl⟩ | ⟨hname, -⟩
    · exact hlibrary
    · exact absurd hname (hnot _)
  · intro ho p content hp
    have hp₁ : t₁.fileAt p = some content := by
      rcases storeFootprint_stores hf with ⟨-, rfl⟩ | ⟨-, text, -, hstores, hnone⟩
      · exact hp
      · exact hstores.fileAt hfootprint (fileOf_eq_none_of_exists? (hnone ho)) hp
    exact storeSymbol_adds hs hfirst hsymbol hlibrary ho hp hp₁

/-! ## Fixed directories -/

theorem exists_footprint_of_generate {r : Option Resolver} {content : String}
    (h : (c.generateFootprint o r).run.value = .ok content) :
    ∃ f : Footprint, content = f.render o.schema := by
  rw [value_generateFootprint] at h
  split at h
  · cases h
  · cases h
  · split at h
    · cases h
    · exact ⟨_, (Except.ok.inj h).symm⟩

theorem render_modern_ne (f : Footprint) (s : String) (h : s.toList.head? ≠ some '(') :
    f.render .modern ≠ s := by
  rintro rfl
  apply h
  simp [Footprint.render, Modern.footprintFile, Modern.footprint, Modern.Expr.print]

/-- A component with a symbol and a footprint that both have names. -/
def resistor (name : String) : Component :=
  ⟨{ name, footprintName := "0603" }, some ⟨[], .zero, {}⟩, some ⟨[], .zero⟩⟩

/-- A directory with a footprint and a symbol. -/
def stocked : FileTree :=
  ⟨"out", [(["lcsc.kicad_sym"], .file (.text "(kicad_symbol_lib\n(symbol \"R1\" (in_bom yes)\n)\n)\n")),
    (["lcsc.pretty"], .directory), (["lcsc.pretty", "0603.kicad_mod"], .file (.text "kept"))]⟩

/-- The footprint of another resistor is kept, and its symbol is written. -/
theorem store_report_second_resistor :
    ∃ t', ((resistor "R2").store "out" {}).exec stocked = (.ok ⟨.written "R2", .kept "0603"⟩, t') ∧
      t'.fileOf "out/lcsc.pretty/0603.kicad_mod" = some (.text "kept") ∧
      ∃ entry before after, ((resistor "R2").generateSymbol {}).run.value = .ok entry ∧
        t'.read "out/lcsc.kicad_sym" = .ok (some (before ++ entry ++ after)) := by
  have hreport : (((resistor "R2").store "out" {}).exec stocked).1 =
      .ok ⟨.written "R2", .kept "0603"⟩ := by decide +kernel
  have hkept : stocked.fileOf "out/lcsc.pretty/0603.kicad_mod" = some (.text "kept") := by
    decide +kernel
  have hplace : (footprints "out" {}).path (resistor "R2").info.footprintName =
      "out/lcsc.pretty/0603.kicad_mod" := by decide +kernel
  have hpath : (symbols "out" {}).path = "out/lcsc.kicad_sym" := by decide +kernel
  have hfootprint : ¬ stocked.Hides
      ((footprints "out" {}).path (resistor "R2").info.footprintName) := by
    intro h
    rw [hplace] at h
    have hleads : stocked.place? "out/lcsc.pretty/0603.kicad_mod" ≠ none := by decide +kernel
    exact hleads h.1
  have hsymbol : ¬ stocked.Hides (symbols "out" {}).path := by
    intro h
    rw [hpath] at h
    have hleads : stocked.place? "out/lcsc.kicad_sym" ≠ none := by decide +kernel
    exact hleads h.1
  rcases hstore : ((resistor "R2").store "out" {}).exec stocked with ⟨report, t'⟩
  rw [hstore] at hreport
  obtain rfl : report = .ok ⟨.written "R2", .kept "0603"⟩ := hreport
  obtain ⟨-, -, hfile, -, hlibrary, -⟩ := store_report hfootprint hsymbol hstore
  have hfile := hfile (by simp)
  have hlibrary := hlibrary "R2" rfl
  rw [hplace, hkept] at hfile
  rw [hpath] at hlibrary
  exact ⟨t', rfl, hfile, hlibrary⟩

/-- The way to a footprint leads through a directory that is not there, and back. No footprint is found
where it leads, but there is one when the directory has been made, and it is lost. -/
theorem store_loses_hidden :
    ∃ t', ((resistor "R1").store "out" { libraryName := "new/../lcsc", symbol := false }).exec stocked =
        (.ok ⟨.disabled, .written "0603"⟩, t') ∧
      stocked.fileAt ["lcsc.pretty", "0603.kicad_mod"] = some (.text "kept") ∧
      t'.fileAt ["lcsc.pretty", "0603.kicad_mod"] ≠ some (.text "kept") := by
  have hreport : (((resistor "R1").store "out"
      { libraryName := "new/../lcsc", symbol := false }).exec stocked).1 =
      .ok ⟨.disabled, .written "0603"⟩ := by decide +kernel
  have hplace : (((resistor "R1").store "out"
      { libraryName := "new/../lcsc", symbol := false }).exec stocked).2.place?
      "out/new/../lcsc.pretty/0603.kicad_mod" = some ["lcsc.pretty", "0603.kicad_mod"] := by
    decide +kernel
  rcases hstore : ((resistor "R1").store "out"
    { libraryName := "new/../lcsc", symbol := false }).exec stocked with ⟨report, t'⟩
  rw [hstore] at hreport hplace
  obtain rfl : report = .ok ⟨.disabled, .written "0603"⟩ := hreport
  refine ⟨t', rfl, by decide +kernel, ?_⟩
  obtain ⟨t₁, hf, hs⟩ := store_eq_ok hstore
  obtain rfl : t' = t₁ := by
    rcases storeSymbol_stores hs with ⟨-, h⟩ | ⟨h, -⟩
    · exact h
    · cases h
  rcases storeFootprint_stores hf with ⟨hnot, -⟩ | ⟨-, content, hcontent, ⟨p, hp, hfile, -⟩, -⟩
  · exact absurd rfl (hnot "0603")
  · have hpath : (footprints "out" { libraryName := "new/../lcsc", symbol := false }).path
        (resistor "R1").info.footprintName = "out/new/../lcsc.pretty/0603.kicad_mod" := by
      decide +kernel
    rw [hpath, hplace] at hp
    rw [Option.some.inj hp, hfile]
    intro h
    -- What was written begins with a parenthesis.
    obtain ⟨f, rfl⟩ := exists_footprint_of_generate hcontent
    exact render_modern_ne f "kept" (by decide) (Content.text.inj (Option.some.inj h))

end Component

end EdaParts
