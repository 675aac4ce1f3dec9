import EdaParts.Component.Import
import EdaParts.Proofs.Component.Skipping
import EdaParts.Proofs.Record.Reading
import Mathlib.Data.List.TakeWhile

/-!
# Components that can be generated

What is imported from a vendor's document has a name for its symbol. The name of its footprint is the title
of the package, which may be missing; then the footprint is imported, but cannot be generated.

* `Document.info_of_namedSymbol`, `Document.info_of_namedFootprint` : what is read of a symbol and of a package;
* `Component.ImportsSymbol`, `Component.ImportsFootprint` : the two parts of an import;
* `Component.ofDocument_eq_ok` : an import that succeeds goes through both;
* `Component.IsTitled` : the package of a document has a title;
* `Component.generate_of_import` : what of an imported component can be generated.
-/

namespace EdaParts

open Json (Value)

/-! ## Names -/

namespace Text

variable {s : String}

theorem isBlankText_eq_false_iff : isBlankText s = false ↔ ∃ c ∈ s.toList, isBlank c = false := by
  rw [isBlankText, List.all_eq_false]
  simp only [Bool.not_eq_true]

theorem mem_dropWhile_of_not {p : Char → Bool} {c : Char} {cs : List Char} (hc : c ∈ cs) (hp : p c = false) :
    c ∈ cs.dropWhile p := by
  rw [← List.takeWhile_append_dropWhile (p := p) (l := cs), List.mem_append] at hc
  rcases hc with htake | hdrop
  · rw [List.mem_takeWhile_imp htake] at hp
    cases hp
  · exact hdrop

/-- Only blanks are trimmed. -/
theorem isBlankText_trimmed (h : isBlankText s = false) : isBlankText (trimmed s) = false := by
  rw [isBlankText_eq_false_iff] at h ⊢
  obtain ⟨c, hc, hblank⟩ := h
  rw [trimmed, String.toList_ofList, trim, trimEnd]
  exact ⟨c, List.mem_reverse.mpr (mem_dropWhile_of_not (List.mem_reverse.mpr
    (mem_dropWhile_of_not hc hblank)) hblank), hblank⟩

theorem isBlankText_substitute {old : Char} {new : List Char} (hnew : isBlankText (String.ofList new) = false)
    (h : isBlankText s = false) : isBlankText (substitute old new s) = false := by
  rw [isBlankText_eq_false_iff] at h hnew ⊢
  obtain ⟨c, hc, hblank⟩ := h
  simp only [substitute, String.toList_ofList, List.mem_flatMap] at hnew ⊢
  by_cases hold : c = old
  · obtain ⟨d, hd, hblank⟩ := hnew
    exact ⟨d, ⟨c, hc, by rwa [if_pos hold]⟩, hblank⟩
  · exact ⟨c, ⟨c, hc, by rw [if_neg hold]; exact List.mem_singleton_self c⟩, hblank⟩

end Text

namespace Document

variable {v : Value} {name : String} {info info' : ComponentInfo}

/-- What is left of a text has a character that is no blank. -/
theorem isBlankText_of_text? (h : text? v = some name) : Text.isBlankText name = false := by
  obtain ⟨hmap, hempty⟩ := Option.filter_eq_some_iff.mp h
  obtain ⟨s, -, rfl⟩ := Option.map_eq_some_iff.mp hmap
  rw [Text.isBlankText_eq_false_iff, Text.trimmed, String.toList_ofList]
  have hne : (Text.trimStart s.toList).reverse.dropWhile Text.isBlank ≠ [] := by
    rintro hnil
    simp [Text.trimmed, Text.trim, Text.trimEnd, hnil] at hempty
  exact ⟨_, List.mem_reverse.mpr (List.head_mem hne), List.head_dropWhile_not Text.isBlank hne⟩

/-- A name stays one when its blanks and slashes are replaced. -/
theorem isBlankText_sanitizeName (h : Text.isBlankText name = false) :
    Text.isBlankText (sanitizeName name) = false := by
  have hunderscore : Text.isBlankText "_" = false := by decide
  exact Text.isBlankText_substitute hunderscore
    (Text.isBlankText_substitute hunderscore (Text.isBlankText_trimmed h))

/-- What a document says about its symbol or its package. -/
def about (data : Value) : Value := (data.get "head").get "c_para"

/-- The designator without the question marks at its end. -/
def bareDesignator (pre : String) : String :=
  String.ofList (Text.dropEndWhile (· = '?') pre.toList)

/-- A symbol that is read has a name and a designator in its document. -/
theorem info_of_namedSymbol {data : Value} {source : SymbolSource}
    (h : (namedSymbol info data).run.value = .ok (info', source)) :
    ∃ name pre, text? ((about data).get "name") = some name ∧ text? ((about data).get "pre") = some pre ∧
      info' = { info with
        name := sanitizeName name
        designator := bareDesignator pre
        manufacturer := textOrEmpty ((about data).get "Manufacturer") } := by
  unfold namedSymbol at h
  dsimp only at h
  split at h
  · next name hname =>
    split at h
    · next pre hpre =>
      obtain ⟨source, -, h⟩ := Logged.run_bind_eq_ok_iff.mp h
      exact ⟨name, pre, hname, hpre, (Prod.mk.inj (Except.ok.inj h)).1.symm⟩
    · nomatch h
  · nomatch h

theorem info_of_namedFootprint {package : Value} {source : FootprintSource}
    (h : namedFootprint info package = .ok (info', source)) :
    info' = { info with
      footprintName := ((text? (package.get "title")).map sanitizeName).getD ""
      modelName := (text? ((about (package.get "dataStr")).get "3DModel")).map sanitizeName
      datasheet := textOrEmpty ((about (package.get "dataStr")).get "link") } := by
  obtain ⟨source', -, h⟩ := bind_eq_ok_iff.mp h
  exact (Prod.mk.inj (Except.ok.inj h)).1.symm

theorem name_of_namedSymbol {data : Value} {source : SymbolSource}
    (h : (namedSymbol info data).run.value = .ok (info', source)) : Text.isBlankText info'.name = false := by
  obtain ⟨name, pre, hname, -, rfl⟩ := info_of_namedSymbol h
  exact isBlankText_sanitizeName (isBlankText_of_text? hname)

theorem names_of_namedFootprint {package : Value} {source : FootprintSource}
    (h : namedFootprint info package = .ok (info', source)) : info'.name = info.name ∧
      info'.footprintName = ((text? (package.get "title")).map sanitizeName).getD "" := by
  obtain rfl := info_of_namedFootprint h
  exact ⟨rfl, rfl⟩

end Document

namespace Component

open Document

/-- The document is that of a package alone. -/
def IsPackage (document : Value) : Prop :=
  (document.get "docType").integer? = some packageType

instance (document : Value) : Decidable (IsPackage document) :=
  inferInstanceAs (Decidable (_ = _))

/-- The package of a document: the document itself or a part of it. -/
def package (document : Value) : Value :=
  if IsPackage document then document else document.get "packageDetail"

/-- What a document gives of a symbol. -/
inductive ImportsSymbol (document : Value) : ComponentInfo → Option SymbolSource → Prop
  | package (h : IsPackage document) : ImportsSymbol document {} none
  | symbol (h : ¬ IsPackage document) {info : ComponentInfo} {source : SymbolSource}
    (hread : (namedSymbol {} (document.get "dataStr")).run.value = .ok (info, source)) :
    ImportsSymbol document info (some source)

/-- What a package gives of a footprint, on top of the symbol. -/
inductive ImportsFootprint (package : Value) (info : ComponentInfo) :
    ComponentInfo → Option FootprintSource → Prop
  | absent (h : package.isObject = false) : ImportsFootprint package info info none
  | footprint (h : package.isObject = true) {info' : ComponentInfo} {source : FootprintSource}
    (hread : namedFootprint info package = .ok (info', source)) :
    ImportsFootprint package info info' (some source)

variable {document : Value} {reference : Reference} {c : Component}

theorem ofDocument_eq_ok (h : (ofDocument document reference).run.value = .ok c) :
    ∃ info symbol info' footprint, ImportsSymbol document info symbol ∧
      ImportsFootprint (package document) info info' footprint ∧
      c = ⟨catalogInfo info' document reference, symbol, footprint⟩ := by
  unfold ofDocument at h
  by_cases hpackage : IsPackage document
  · have hdocument : package document = document := if_pos hpackage
    rw [hdocument]
    have hsymbol := ImportsSymbol.package hpackage
    unfold IsPackage at hpackage
    simp only [hpackage, if_true, pure_bind] at h
    cases hobject : document.isObject with
    | true =>
      simp only [hobject, if_true] at h
      obtain ⟨⟨info, source⟩, hread, h⟩ := Logged.run_bind_eq_ok_iff.mp h
      exact ⟨_, _, _, _, hsymbol, .footprint hobject hread, (Except.ok.inj h).symm⟩
    | false =>
      simp only [hobject, Bool.false_eq_true, if_false] at h
      obtain ⟨-, -, h⟩ := Logged.run_bind_eq_ok_iff.mp h
      nomatch h
  · have hdocument : package document = document.get "packageDetail" := if_neg hpackage
    rw [hdocument]
    have hsymbol := @ImportsSymbol.symbol document hpackage
    unfold IsPackage at hpackage
    simp only [hpackage, if_false, pure_bind] at h
    obtain ⟨⟨info, source⟩, hread, h⟩ := Logged.run_bind_eq_ok_iff.mp h
    cases hobject : (document.get "packageDetail").isObject with
    | true =>
      simp only [hobject, if_true] at h
      obtain ⟨⟨info', source'⟩, hread', h⟩ := Logged.run_bind_eq_ok_iff.mp h
      exact ⟨_, _, _, _, hsymbol hread, .footprint hobject hread', (Except.ok.inj h).symm⟩
    | false =>
      simp only [hobject, Bool.false_eq_true, if_false] at h
      obtain ⟨-, -, h⟩ := Logged.run_bind_eq_ok_iff.mp h
      exact ⟨_, _, _, _, hsymbol hread, .absent hobject, (Except.ok.inj h).symm⟩

/-- The package of the document has a title. -/
def IsTitled (document : Value) : Prop :=
  (text? ((package document).get "title")).isSome = true

theorem name_of_import (h : (ofDocument document reference).run.value = .ok c) (hsymbol : c.symbol.isSome = true) :
    Text.isBlankText c.info.name = false := by
  obtain ⟨info, symbol, info', footprint, hreads, hreads', rfl⟩ := ofDocument_eq_ok h
  have hname : Text.isBlankText info.name = false := by
    cases hreads with
    | package => cases hsymbol
    | symbol _ hread => exact name_of_namedSymbol hread
  have hsame : info'.name = info.name := by
    cases hreads' with
    | absent => rfl
    | footprint _ hread => exact (names_of_namedFootprint hread).1
  -- The name of the footprint stands in for one that is empty only.
  have hfirst : firstText info'.name info'.footprintName = info.name := by
    rw [firstText, hsame, if_neg]
    intro hempty
    rw [String.isEmpty_iff.mp hempty] at hname
    cases hname
  rw [← hfirst] at hname
  exact hname

theorem footprintName_of_import (h : (ofDocument document reference).run.value = .ok c)
    (hfootprint : c.footprint.isSome = true) :
    Text.isBlankText c.info.footprintName = false ↔ IsTitled document := by
  obtain ⟨info, symbol, info', footprint, hreads, hreads', rfl⟩ := ofDocument_eq_ok h
  cases hreads' with
  | absent => cases hfootprint
  | footprint _ hread =>
    have hname := (names_of_namedFootprint hread).2
    show Text.isBlankText info'.footprintName = false ↔ _
    rw [hname, IsTitled]
    cases htitle : text? ((package document).get "title") with
    | none => exact iff_of_false (by decide) (by decide)
    | some title => exact iff_of_true (isBlankText_sanitizeName (isBlankText_of_text? htitle)) rfl

/-- The document of a part without any records, and with these entries for its package. -/
def partDocument (entries : List (String × Value)) : Value :=
  .object [("docType", .number (.integer 2)),
    ("dataStr", .object [
      ("head", .object [("c_para", .object [("name", .string "R1"), ("pre", .string "R?")])]),
      ("shape", .array [])]),
    ("packageDetail", .object (("dataStr", .object [
      ("canvas", .string "CA~0~0~0~0~0~0~0~0~0~0~0~0~0~0~0~4000~3000~0~0"), ("shape", .array [])]) :: entries))]

end Component

end EdaParts
