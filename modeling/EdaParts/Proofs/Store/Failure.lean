import EdaParts.Proofs.Store.Operations
import EdaParts.Proofs.Symbol.Texts
import EdaParts.Proofs.Text.Occurrence

/-!
# Failures of a whole component

A component is stored in two steps, the footprint and then the symbol. Each step by itself fails before
it does anything, the file system apart; but the symbol may be refused when the footprint has been
stored.

* `SymbolLibrary.LacksFooter` : a library in which no symbol of a name can be stored;
* `RefusesFootprint`, `RefusesSymbol` : why a step fails for another reason than the file system;
* `storeFootprint_eq_error_iff`, `storeSymbol_eq_error_iff` : such a step leaves the tree as it is;
* `store_eq_error_iff` : what a failed call leaves.
-/

namespace EdaParts

open EntryPattern

namespace SymbolLibrary

variable (l : SymbolLibrary) {name entry text : String} {overwrite : Bool} {e : Error}

/-- A library with no entry of a name, and no footer that one could stand before. -/
def LacksFooter (name text : String) : Prop :=
  (ofName l.schema name).split? (l.contents text) = none ∧
    ¬ l.footer.toList <:+: (l.contents text).toList

theorem insert_eq_error_iff :
    l.insert name entry text overwrite = .error e ↔
      (((ofName l.schema name).split? (l.contents text)).isSome = true ∧ overwrite = false ∧
        e = .alreadyExists (s!"symbol '{name}' in " ++ l.path)) ∨
      l.LacksFooter name text ∧ e = .noFooter l.path := by
  unfold LacksFooter
  rw [← Text.cutLast_eq_none_iff]
  unfold insert
  cases hsplit : (ofName l.schema name).split? (l.contents text) with
  | some parts =>
    cases overwrite <;> simp [hsplit, eq_comm]
  | none =>
    cases hcut : Text.cutLast l.footer.toList (l.contents text).toList with
    | some parts => simp [hsplit, hcut]
    | none => simp [hsplit, hcut, eq_comm]

end SymbolLibrary

namespace Component

variable {c : Component} {o : Options} {directory : String} {t t' : FileTree} {e : Error}

/-! ## The footprint -/

/-- A footprint is refused for lack of records, or for lack of a name. -/
theorem value_toFootprint (c : Component) (r : Option Resolver) :
    (c.toFootprint r).run.value =
      match c.footprint with
      | none => .error (.missingData "component has no footprint data")
      | some source =>
        if Text.isBlankText c.info.footprintName then .error (.missingData "footprint name")
        else .ok ((Board.ofLines ⟨.board source.origin, r⟩ source.shapes).value.finish
          c.info.footprintName) := by
  unfold toFootprint
  cases c.footprint with
  | none => rfl
  | some source =>
    by_cases hname : Text.isBlankText c.info.footprintName = true
    · simp only [hname, if_true]
      rfl
    · simp only [hname]
      rfl

theorem value_generateFootprint (c : Component) (o : Options) (r : Option Resolver) :
    (c.generateFootprint o r).run.value =
      match o.validate, c.footprint with
      | .error e, _ => .error e
      | .ok (), none => .error (.missingData "component has no footprint data")
      | .ok (), some source =>
        if Text.isBlankText c.info.footprintName then .error (.missingData "footprint name")
        else .ok ((Board.ofLines ⟨.board source.origin, r⟩ source.shapes).value.finish
          c.info.footprintName |>.render o.schema) := by
  unfold generateFootprint
  cases o.validate with
  | error e => rfl
  | ok u =>
    have hrender : (do return (← c.toFootprint r).render o.schema : Outcome String).run.value =
        (c.toFootprint r).run.value.map fun f => f.render o.schema := by
      rw [ExceptT.run_bind, Logged.value_bind]
      cases (c.toFootprint r).run.value <;> rfl
    refine hrender.trans ?_
    rw [value_toFootprint]
    cases c.footprint with
    | none => rfl
    | some source => cases Text.isBlankText c.info.footprintName <;> rfl

def footprints (directory : String) (o : Options) : FootprintLibrary :=
  ⟨directory, o.libraryName, o.schema⟩

def symbols (directory : String) (o : Options) : SymbolLibrary :=
  ⟨directory, o.libraryName, o.schema⟩

theorem storeFootprint_eq (c : Component) (directory : String) (o : Options) : c.storeFootprint directory o =
    Storing.artifact o.footprint c.footprint.isNone (c.generateFootprint o (c.resolver? o)) fun text =>
      Storing.keepExisting c.info.footprintName
        ((footprints directory o).write c.info.footprintName text o.overwrite) := rfl

/-- The footprint is asked for and there, but it has no name. -/
def RefusesFootprint (c : Component) (o : Options) (e : Error) : Prop :=
  o.footprint = true ∧ c.footprint.isSome = true ∧ Text.isBlankText c.info.footprintName = true ∧
    e = .missingData "footprint name"

/-- What keeping an existing footprint leaves of the ways in which storing it can end. -/
theorem exec_keepFootprint (l : FootprintLibrary) (name content : String) (overwrite : Bool)
    (t : FileTree) :
    if t.exists? (l.path name) = true ∧ overwrite = false then
      (Storing.keepExisting name (l.write name content overwrite)).exec t = (.ok (.kept name), t)
    else
      (∃ t', (Storing.keepExisting name (l.write name content overwrite)).exec t = (.error .io, t')) ∨
      ∃ t', (Storing.keepExisting name (l.write name content overwrite)).exec t =
          (.ok (.written name), t') ∧ t.Stores t' (l.path name) content := by
  have hwrite := l.exec_write name content overwrite t
  split at hwrite
  · next hkept => rw [if_pos hkept, Storing.exec_keepExisting, hwrite]
  · next hkept =>
    rw [if_neg hkept]
    rcases hwrite with ⟨t', hfailed⟩ | ⟨t', hok, hstores⟩
    · rw [Storing.exec_keepExisting, hfailed]
      exact Or.inl ⟨t', rfl⟩
    · rw [Storing.exec_keepExisting, hok]
      exact Or.inr ⟨t', rfl, hstores⟩

theorem exec_keepFootprint_eq_ok {l : FootprintLibrary} {name content : String} {overwrite : Bool}
    {status : Status} (h : (Storing.keepExisting name (l.write name content overwrite)).exec t = (.ok status, t')) :
    if t.exists? (l.path name) = true ∧ overwrite = false then status = .kept name ∧ t' = t
    else status = .written name ∧ t.Stores t' (l.path name) content := by
  have hkeep := exec_keepFootprint l name content overwrite t
  split at hkeep
  · next hkept =>
    obtain ⟨hstatus, rfl⟩ := Prod.mk.inj (hkeep.symm.trans h)
    rw [if_pos hkept]
    exact ⟨(Except.ok.inj hstatus).symm, rfl⟩
  · next hkept =>
    rw [if_neg hkept]
    rcases hkeep with ⟨t₁, hk⟩ | ⟨t₁, hk, hstores⟩
    · cases hk.symm.trans h
    · obtain ⟨hstatus, rfl⟩ := Prod.mk.inj (hk.symm.trans h)
      exact ⟨(Except.ok.inj hstatus).symm, hstores⟩

/-- **A footprint that is refused** leaves the tree as it is. -/
theorem storeFootprint_eq_error_iff (hvalid : o.validate = .ok ()) (he : e ≠ .io) :
    (c.storeFootprint directory o).exec t = (.error e, t') ↔ t' = t ∧ c.RefusesFootprint o e := by
  unfold RefusesFootprint
  rw [storeFootprint_eq, Storing.exec_artifact, value_generateFootprint, hvalid]
  cases o.footprint with
  | false => simp
  | true =>
    cases c.footprint with
    | none => simp
    | some source =>
      by_cases hname : Text.isBlankText c.info.footprintName = true
      · simp [hname, eq_comm, and_comm]
      · simp only [hname, Option.isNone_some, Bool.false_eq_true, Bool.true_eq_false, if_false]
        have hkeep := exec_keepFootprint (footprints directory o) c.info.footprintName
          ((Board.ofLines ⟨.board source.origin, c.resolver? o⟩ source.shapes).value.finish
            c.info.footprintName |>.render o.schema) o.overwrite t
        split at hkeep
        · rw [hkeep]
          simp
        · rcases hkeep with ⟨t₁, h⟩ | ⟨t₁, h, -⟩
          · rw [h]
            simp [he.symm]
          · rw [h]
            simp

/-- **What storing a footprint did**, if it did not fail. -/
theorem storeFootprint_eq_ok {status : Status}
    (h : (c.storeFootprint directory o).exec t = (.ok status, t')) :
    o.footprint = false ∧ status = .disabled ∧ t' = t ∨
    o.footprint = true ∧ c.footprint.isSome = false ∧ status = .missing ∧ t' = t ∨
    o.footprint = true ∧ c.footprint.isSome = true ∧
      if t.exists? ((footprints directory o).path c.info.footprintName) = true ∧ o.overwrite = false then
        status = .kept c.info.footprintName ∧ t' = t
      else
        status = .written c.info.footprintName ∧
          ∃ content, (c.generateFootprint o (c.resolver? o)).run.value = .ok content ∧
            t.Stores t' ((footprints directory o).path c.info.footprintName) content := by
  rw [storeFootprint_eq] at h
  refine (Storing.exec_artifact_eq_ok h).imp_right (Or.imp ?_ ?_)
  · rintro ⟨hon, hnone, hmissing⟩
    exact ⟨hon, by simpa using hnone, hmissing⟩
  · rintro ⟨hon, hsome, content, hcontent, hkeep⟩
    refine ⟨hon, by simpa [Option.isSome_iff_ne_none] using hsome, ?_⟩
    have hstored := exec_keepFootprint_eq_ok hkeep
    split
    · next hkept => rwa [if_pos hkept] at hstored
    · next hkept =>
      rw [if_neg hkept] at hstored
      exact ⟨hstored.1, content, hcontent, hstored.2⟩

/-- A footprint that is not told to be written left the tree as it was. -/
theorem storeFootprint_stores {status : Status}
    (h : (c.storeFootprint directory o).exec t = (.ok status, t')) :
    (∀ n, status ≠ .written n) ∧ t' = t ∨
      status = .written c.info.footprintName ∧
        ∃ content, (c.generateFootprint o (c.resolver? o)).run.value = .ok content ∧
          t.Stores t' ((footprints directory o).path c.info.footprintName) content ∧
          (o.overwrite = false →
            t.exists? ((footprints directory o).path c.info.footprintName) = false) := by
  rcases storeFootprint_eq_ok h with ⟨-, rfl, rfl⟩ | ⟨-, -, rfl, rfl⟩ | ⟨-, -, hdone⟩
  · exact Or.inl ⟨by simp, rfl⟩
  · exact Or.inl ⟨by simp, rfl⟩
  · split at hdone
    · obtain ⟨rfl, rfl⟩ := hdone
      exact Or.inl ⟨by simp, rfl⟩
    · next hkept =>
      obtain ⟨rfl, content, hcontent, hstores⟩ := hdone
      refine Or.inr ⟨rfl, content, hcontent, hstores, fun ho => ?_⟩
      rw [Bool.eq_false_iff]
      exact fun hexists => hkept ⟨hexists, ho⟩

/-- A footprint that is not refused has been written, or the tree is as it was. -/
theorem storeFootprint_written_or_unchanged {status : Status}
    (h : (c.storeFootprint directory o).exec t = (.ok status, t')) :
    (∀ name, status ≠ .written name) ∧ t' = t ∨
      status = .written c.info.footprintName ∧
        ∃ content, (c.generateFootprint o (c.resolver? o)).run.value = .ok content ∧
          t'.read ((footprints directory o).path c.info.footprintName) = .ok (some content) :=
  (storeFootprint_stores h).imp_right fun ⟨hwritten, content, hcontent, hstores, _⟩ =>
    ⟨hwritten, content, hcontent, hstores.read⟩

/-! ## The symbol -/

theorem storeSymbol_eq (c : Component) (directory : String) (o : Options) : c.storeSymbol directory o =
    Storing.artifact o.symbol c.symbol.isNone (c.generateSymbol o) fun text =>
      Storing.keepExisting c.info.name ((symbols directory o).write c.info.name text o.overwrite) := rfl

/-- The symbol is asked for and there, but it has no name, or the library of the tree lacks a footer. -/
def RefusesSymbol (c : Component) (directory : String) (o : Options) (t : FileTree) (e : Error) : Prop :=
  o.symbol = true ∧ c.symbol.isSome = true ∧
    (Text.isBlankText c.info.name = true ∧ e = .missingData "symbol name" ∨
      Text.isBlankText c.info.name = false ∧ ∃ text, t.read (symbols directory o).path = .ok text ∧
        (symbols directory o).LacksFooter c.info.name (text.getD "") ∧
        e = .noFooter (symbols directory o).path)

/-- Keeping an existing symbol hides one reason to refuse it. -/
theorem exec_keepSymbol_eq_error_iff {l : SymbolLibrary} {name entry : String} {overwrite : Bool}
    (he : e ≠ .io) :
    (Storing.keepExisting name (l.write name entry overwrite)).exec t = (.error e, t') ↔
      t' = t ∧ ∃ text, t.read l.path = .ok text ∧ l.LacksFooter name (text.getD "") ∧
        e = .noFooter l.path := by
  rw [Storing.exec_keepExisting_eq_error_iff, l.exec_write_eq_error_iff he]
  constructor
  · rintro ⟨⟨rfl, text, hread, hinsert⟩, hother⟩
    rcases (l.insert_eq_error_iff).mp hinsert with ⟨-, -, hexists⟩ | ⟨hlacks, hfooter⟩
    · exact absurd hexists (hother _)
    · exact ⟨rfl, text, hread, hlacks, hfooter⟩
  · rintro ⟨rfl, text, hread, hlacks, rfl⟩
    refine ⟨⟨rfl, text, hread, (l.insert_eq_error_iff).mpr (Or.inr ⟨hlacks, rfl⟩)⟩, ?_⟩
    simp

/-- **A symbol that is refused** leaves the tree as it is. -/
theorem storeSymbol_eq_error_iff (hvalid : o.validate = .ok ()) (he : e ≠ .io) :
    (c.storeSymbol directory o).exec t = (.error e, t') ↔
      t' = t ∧ c.RefusesSymbol directory o t e := by
  unfold RefusesSymbol
  rw [storeSymbol_eq, Storing.exec_artifact, value_generateSymbol, value_toSymbol, hvalid]
  cases o.symbol with
  | false => simp
  | true =>
    cases c.symbol with
    | none => simp
    | some source =>
      by_cases hname : Text.isBlankText c.info.name = true
      · simp [hname, eq_comm, and_comm, Except.map]
      · simp only [hname, Option.isNone_some, Bool.false_eq_true, Bool.true_eq_false, if_false,
          Except.map]
        rw [exec_keepSymbol_eq_error_iff he]
        simp

/-! ## Both -/

theorem exec_store (c : Component) (directory : String) (o : Options) (t : FileTree) :
    (c.store directory o).exec t =
      match o.validate with
      | .error e => (.error e, t)
      | .ok () =>
        match (c.storeFootprint directory o).exec t with
        | (.ok footprint, t') =>
          match (c.storeSymbol directory o).exec t' with
          | (.ok symbol, t'') => (.ok { symbol, footprint }, t'')
          | (.error e, t'') => (.error e, t'')
        | (.error e, t') => (.error e, t') := by
  unfold store
  rw [Storing.exec_bind, Storing.exec_ofOutcome]
  cases o.validate with
  | error e => rfl
  | ok u =>
    have hvalid : (liftM (Except.ok u : Except Error Unit) : Outcome Unit).run.value = .ok u := rfl
    rw [hvalid]
    simp only [Storing.exec_bind, Storing.exec_pure]
    rcases (c.storeFootprint directory o).exec t with ⟨_ | footprint, t₁⟩
    · rfl
    · rcases hsymbol : (c.storeSymbol directory o).exec t₁ with ⟨_ | symbol, t₂⟩ <;>
        simp only [hsymbol]

/-- **What a call that fails leaves behind**, if it is not the file system that fails. The tree is as it was
if the options make no sense, if the footprint is refused, or if the symbol is and no footprint was
written before; but a footprint that was written stays if the symbol is refused after it. -/
theorem store_eq_error_iff (he : e ≠ .io) :
    (c.store directory o).exec t = (.error e, t') ↔
      o.validate = .error e ∧ t' = t ∨
      o.validate = .ok () ∧ c.RefusesFootprint o e ∧ t' = t ∨
      o.validate = .ok () ∧ ∃ status, (c.storeFootprint directory o).exec t = (.ok status, t') ∧
        c.RefusesSymbol directory o t' e ∧
        ((∀ name, status ≠ .written name) ∧ t' = t ∨
          status = .written c.info.footprintName ∧
            ∃ content, (c.generateFootprint o (c.resolver? o)).run.value = .ok content ∧
              t'.read ((footprints directory o).path c.info.footprintName) = .ok (some content)) := by
  rw [exec_store]
  cases hvalid : o.validate with
  | error err => simp [eq_comm]
  | ok u =>
    constructor
    · intro h
      refine Or.inr ?_
      rcases hfootprint : (c.storeFootprint directory o).exec t with ⟨err | status, t₁⟩
      · rw [hfootprint] at h
        obtain ⟨herr, rfl⟩ := Prod.mk.inj h
        rw [Except.error.inj herr] at hfootprint
        obtain ⟨rfl, hrefuses⟩ := (storeFootprint_eq_error_iff hvalid he).mp hfootprint
        exact Or.inl ⟨rfl, hrefuses, rfl⟩
      · rw [hfootprint] at h
        rcases hsymbol : (c.storeSymbol directory o).exec t₁ with ⟨err | _, t₂⟩
        · simp only [hsymbol] at h
          obtain ⟨herr, rfl⟩ := Prod.mk.inj h
          rw [Except.error.inj herr] at hsymbol
          obtain ⟨rfl, hrefuses⟩ := (storeSymbol_eq_error_iff hvalid he).mp hsymbol
          exact Or.inr ⟨rfl, status, rfl, hrefuses, storeFootprint_written_or_unchanged hfootprint⟩
        · simp only [hsymbol] at h
          cases h
    · rintro (⟨herr, -⟩ | ⟨-, hrefuses, rfl⟩ | ⟨-, status, hfootprint, hrefuses, -⟩)
      · cases herr
      · have hfootprint : (c.storeFootprint directory o).exec t' = (.error e, t') :=
          (storeFootprint_eq_error_iff hvalid he).mpr ⟨rfl, hrefuses⟩
        simp only [hfootprint]
      · have hsymbol : (c.storeSymbol directory o).exec t' = (.error e, t') :=
          (storeSymbol_eq_error_iff hvalid he).mpr ⟨rfl, hrefuses⟩
        simp only [hfootprint, hsymbol]

/-- A component whose footprint has no name leaves a directory empty. -/
theorem store_refuses_footprint :
    (store ⟨{ name := "R1" }, none, some ⟨[], .zero⟩⟩ "out" {}).exec (.empty "out") =
      (.error (.missingData "footprint name"), .empty "out") :=
  (store_eq_error_iff (by simp)).mpr
    (Or.inr (Or.inl ⟨Options.validate_default, ⟨rfl, rfl, by decide, rfl⟩, rfl⟩))

/-- A component with a symbol and a footprint, and a name for the footprint alone. -/
def halfNamed : Component :=
  ⟨{ footprintName := "0603" }, some ⟨[], .zero, {}⟩, some ⟨[], .zero⟩⟩

/-- It leaves its footprint there when its symbol is refused. -/
theorem store_leaves_footprint :
    ∃ t', (halfNamed.store "out" {}).exec (.empty "out") = (.error (.missingData "symbol name"), t') ∧
      (FileTree.empty "out").get? ["lcsc.pretty", "0603.kicad_mod"] = none ∧
      (t'.get? ["lcsc.pretty", "0603.kicad_mod"]).isSome = true := by
  have hok : ((halfNamed.storeFootprint "out" {}).exec (.empty "out")).1.isOk = true := by
    decide +kernel
  have hfile : (((halfNamed.storeFootprint "out" {}).exec (.empty "out")).2.get?
      ["lcsc.pretty", "0603.kicad_mod"]).isSome = true := by
    decide +kernel
  rcases hfootprint : (halfNamed.storeFootprint "out" {}).exec (.empty "out") with ⟨_ | status, t'⟩
  · rw [hfootprint] at hok
    cases hok
  · rw [hfootprint] at hfile
    have hsymbol : (halfNamed.storeSymbol "out" {}).exec t' = (.error (.missingData "symbol name"), t') :=
      (storeSymbol_eq_error_iff Options.validate_default (by simp)).mpr
        ⟨rfl, rfl, rfl, Or.inl ⟨by decide, rfl⟩⟩
    refine ⟨t', ?_, by decide +kernel, hfile⟩
    rw [exec_store, Options.validate_default]
    simp only [hfootprint, hsymbol]

end Component

end EdaParts
