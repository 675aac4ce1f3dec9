import EdaParts.Proofs.Component.Confinement
import EdaParts.Proofs.Symbol.Texts

/-!
# Names and designators of imported symbols

The name and the designator of a symbol must not be blank in its document. A name stays one when it is made fit for
files. Of a designator the question marks at its end are dropped, after it has been looked at, and nothing may be left.

* `Text.dropEndWhile_eq_nil_iff` : when nothing is left of a text;
* `Document.isBlankText_bareDesignator_iff` : when nothing is left of a designator;
* `Document.namedSymbol_of_nameless`, `Document.namedSymbol_of_bare` : documents without a name or a designator;
* `Component.symbol_named_iff` : what an imported symbol is called, and what is shown of it.
-/

namespace EdaParts

open Json (Value)

namespace Text

variable {p : Char → Bool} {cs : List Char}

theorem dropEndWhile_eq_nil_iff : dropEndWhile p cs = [] ↔ ∀ c ∈ cs, p c = true := by
  rw [dropEndWhile, List.reverse_eq_nil_iff, List.dropWhile_eq_nil_iff]
  simp

theorem dropEndWhile_prefix (p : Char → Bool) (cs : List Char) : dropEndWhile p cs <+: cs := by
  rw [← List.reverse_suffix, dropEndWhile, List.reverse_reverse]
  exact List.dropWhile_suffix p

end Text

namespace Document

variable {v data package : Value} {pre : String} {info info' : ComponentInfo}

/-- The first character of what is left of a text is no blank. -/
theorem head?_of_text? (h : text? v = some pre) : ∀ c ∈ pre.toList.head?, Text.isBlank c = false := by
  obtain ⟨hmap, -⟩ := Option.filter_eq_some_iff.mp h
  obtain ⟨s, -, rfl⟩ := Option.map_eq_some_iff.mp hmap
  rw [Text.trimmed, String.toList_ofList]
  exact Text.head?_trim s.toList

/-- Nothing is left of a designator just if it consists of question marks. -/
theorem isBlankText_bareDesignator_iff (h : text? v = some pre) :
    Text.isBlankText (bareDesignator pre) = true ↔ ∀ c ∈ pre.toList, c = '?' := by
  have hnil : Text.dropEndWhile (· = '?') pre.toList = [] ↔ ∀ c ∈ pre.toList, c = '?' := by
    rw [Text.dropEndWhile_eq_nil_iff]
    simp
  rw [← hnil, Text.isBlankText, bareDesignator, String.toList_ofList, List.all_eq_true]
  constructor
  · intro hblank
    obtain ⟨rest, hrest⟩ := Text.dropEndWhile_prefix (· = '?') pre.toList
    cases hleft : Text.dropEndWhile (· = '?') pre.toList with
    | nil => rfl
    | cons c cs =>
      -- What is left begins as the designator does, and that not with a blank.
      rw [hleft] at hblank hrest
      have hfirst := head?_of_text? h c (by rw [← hrest]; rfl)
      cases hfirst.symm.trans (hblank c List.mem_cons_self)
  · intro hleft
    simp [hleft]

theorem designator_of_namedSymbol {source : SymbolSource}
    (h : (namedSymbol info data).run.value = .ok (info', source)) :
    ∃ pre, text? ((about data).get "pre") = some pre ∧ info'.designator = bareDesignator pre := by
  obtain ⟨name, pre, -, hpre, rfl⟩ := info_of_namedSymbol h
  exact ⟨pre, hpre, rfl⟩

theorem designator_of_namedFootprint {source : FootprintSource}
    (h : namedFootprint info package = .ok (info', source)) : info'.designator = info.designator := by
  obtain rfl := info_of_namedFootprint h
  rfl

/-- A document without a name has no symbol. -/
theorem namedSymbol_of_nameless (h : text? ((about data).get "name") = none) :
    (namedSymbol info data).run.value = .error (.missingData "Symbol name is missing") := by
  unfold about at h
  unfold namedSymbol
  simp only [h]
  rfl

/-- A document without a designator has none either. -/
theorem namedSymbol_of_bare (hname : (text? ((about data).get "name")).isSome = true)
    (hpre : text? ((about data).get "pre") = none) :
    (namedSymbol info data).run.value = .error (.missingData "Symbol prefix is missing") := by
  obtain ⟨name, hname⟩ := Option.isSome_iff_exists.mp hname
  unfold about at hname hpre
  unfold namedSymbol
  simp only [hname, hpre]
  rfl

end Document

/-- The symbol shows a name and a designator: in the line that defines it, and in its reference. -/
structure Symbol.Shows (s : Symbol) (name designator : String) : Prop where
  definition : ∃ rest, [.bare "DEF", .bare name, .bare designator] ++ rest ∈ Legacy.symbol s
  reference : ∃ f ∈ s.fields, f.key = .reference ∧ f.value = designator

namespace Component

open Document

variable {document : Value} {reference : Reference} {c : Component} {e : Error}

/-- An import fails if its symbol does. -/
theorem ofDocument_of_namedSymbol (hpackage : ¬ IsPackage document)
    (h : (namedSymbol {} (document.get "dataStr")).run.value = .error e) :
    (ofDocument document reference).run.value = .error e := by
  unfold ofDocument
  unfold IsPackage at hpackage
  simp only [hpackage, if_false]
  exact Logged.run_bind_of_error h

/-- The designator of an imported symbol is what is left of that of its document. -/
theorem designator_of_import (h : (ofDocument document reference).run.value = .ok c)
    (hsymbol : c.symbol.isSome = true) :
    ∃ pre, text? ((about (document.get "dataStr")).get "pre") = some pre ∧
      c.info.designator = bareDesignator pre := by
  obtain ⟨info, symbol, info', footprint, hreads, hreads', rfl⟩ := ofDocument_eq_ok h
  have hsame : info'.designator = info.designator := by
    cases hreads' with
    | absent => rfl
    | footprint _ hread => exact designator_of_namedFootprint hread
  cases hreads with
  | package => cases hsymbol
  | symbol _ hread =>
    obtain ⟨pre, hpre, hdesignator⟩ := designator_of_namedSymbol hread
    exact ⟨pre, hpre, hsame.trans hdesignator⟩

theorem shows_of_toSymbol {o : Options} {s : Symbol} (h : (c.toSymbol o).run.value = .ok s) :
    s.Shows c.info.name c.info.designator := by
  obtain ⟨source, rfl⟩ := eq_drawnSymbol h
  constructor
  · exact ⟨_, List.mem_append_left _ (List.mem_cons_of_mem _ (List.mem_cons_of_mem _ (List.mem_cons_of_mem _
      List.mem_cons_self)))⟩
  · exact ⟨_, List.mem_cons_self, rfl, rfl⟩

/-- **What an imported symbol is called.** A document without a name or a designator is refused for lack of it. What is
imported otherwise has a name, and a designator just if that of the document is not made of question marks alone; and
all of its symbols show both. -/
theorem symbol_named_iff (document : Value) (reference : Reference) :
    (¬ IsPackage document → text? ((about (document.get "dataStr")).get "name") = none →
      (ofDocument document reference).run.value = .error (.missingData "Symbol name is missing")) ∧
    (¬ IsPackage document → (text? ((about (document.get "dataStr")).get "name")).isSome = true →
      text? ((about (document.get "dataStr")).get "pre") = none →
      (ofDocument document reference).run.value = .error (.missingData "Symbol prefix is missing")) ∧
    ∀ c, (ofDocument document reference).run.value = .ok c → c.symbol.isSome = true →
      Text.isBlankText c.info.name = false ∧
      (Text.isBlankText c.info.designator = true ↔
        ∃ pre, text? ((about (document.get "dataStr")).get "pre") = some pre ∧ ∀ ch ∈ pre.toList, ch = '?') ∧
      ∀ o s, (c.toSymbol o).run.value = .ok s → s.Shows c.info.name c.info.designator := by
  refine ⟨fun hpackage hname => ofDocument_of_namedSymbol hpackage (namedSymbol_of_nameless hname),
    fun hpackage hname hpre => ofDocument_of_namedSymbol hpackage (namedSymbol_of_bare hname hpre),
    fun c h hsymbol => ⟨name_of_import h hsymbol, ?_, fun _ _ => shows_of_toSymbol⟩⟩
  obtain ⟨pre, hpre, hdesignator⟩ := designator_of_import h hsymbol
  rw [hdesignator, isBlankText_bareDesignator_iff hpre, hpre]
  simp

/-- The document of a symbol of a name and a designator, without records. -/
def symbolDocument (name pre : String) : Value :=
  .object [("dataStr", .object [
    ("head", .object [("c_para", .object [("name", .string name), ("pre", .string pre)])]), ("shape", .array [])])]

/-- Blanks for a name and for a designator, and both of them given. -/
theorem symbol_named_resistor :
    (ofDocument (symbolDocument " " "R?") (.catalog "C1")).run.value =
      .error (.missingData "Symbol name is missing") ∧
    (ofDocument (symbolDocument "R1" " ") (.catalog "C1")).run.value =
      .error (.missingData "Symbol prefix is missing") ∧
    ∃ c, (ofDocument (symbolDocument "R1" "R?") (.catalog "C1")).run.value = .ok c ∧
      Text.isBlankText c.info.name = false ∧ Text.isBlankText c.info.designator = false := by
  obtain ⟨hnameless, -, -⟩ := symbol_named_iff (symbolDocument " " "R?") (.catalog "C1")
  obtain ⟨-, hbare, -⟩ := symbol_named_iff (symbolDocument "R1" " ") (.catalog "C1")
  obtain ⟨-, -, hnamed⟩ := symbol_named_iff (symbolDocument "R1" "R?") (.catalog "C1")
  refine ⟨hnameless (by decide) (by decide), hbare (by decide) (by decide) (by decide), ?_⟩
  obtain ⟨c, hc⟩ := exists_of_isOk (show
    (ofDocument (symbolDocument "R1" "R?") (.catalog "C1")).run.value.isOk = true by decide +kernel)
  have hsymbol : (ofDocument (symbolDocument "R1" "R?") (.catalog "C1")).run.value.toOption.map (·.symbol.isSome) =
      some true := by decide +kernel
  rw [hc] at hsymbol
  obtain ⟨hname, hdesignator, -⟩ := hnamed c hc (Option.some.inj hsymbol)
  refine ⟨c, hc, hname, Bool.eq_false_iff.mpr fun hblank => ?_⟩
  obtain ⟨pre, hpre, hquestions⟩ := hdesignator.mp hblank
  have hknown : text? ((about ((symbolDocument "R1" "R?").get "dataStr")).get "pre") = some "R?" := by decide
  obtain rfl := Option.some.inj (hknown.symm.trans hpre)
  exact absurd (hquestions 'R' (by decide)) (by decide)

/-- Of a designator made of question marks nothing is left, and the line that defines the symbol has a blank for it. -/
theorem symbol_unnamed_questions :
    ((ofDocument (symbolDocument "R1" "???") (.catalog "C1")).run.value.toOption.map
      fun c => (c.symbol.isSome, c.info.name, c.info.designator)) = some (true, "R1", "") ∧
    ((ofDocument (symbolDocument "R1" "???") (.catalog "C1")).run.value.toOption.bind fun c =>
      (c.toSymbol {}).run.value.toOption.bind fun s => (Legacy.symbol s)[3]?.map fun line => Legacy.print [line]) =
        some "DEF R1  0 40 Y Y 1 F N\n" := by
  decide +kernel

end Component

end EdaParts
