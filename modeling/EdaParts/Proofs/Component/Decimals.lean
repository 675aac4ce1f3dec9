import EdaParts.Proofs.Component.Importing
import EdaParts.Proofs.Legacy.Decimals
import EdaParts.Proofs.Modern.Decimals

/-!
# Numbers of generated texts

The numbers of a generated symbol are decimals, whatever its records say. Those of a footprint are decimals just
if they can be rounded as doubles, and this holds if its source is near; but the origin of a canvas and the
placement of a model may spell what is no number, and a finite number may be too large.

* `Symbol.PrintsDecimals`, `Footprint.PrintsDecimals` : the text of either schema has decimals for its numbers;
* `Component.generate_decimals` : when this is so for generated texts.
-/

namespace EdaParts

open Json (Value)

/-- The entry of a symbol has decimals for its numbers. -/
def Symbol.PrintsDecimals (s : Symbol) : Schema → Prop
  | .legacy => Legacy.HaveDecimals (Legacy.symbol s)
  | .modern => Modern.PrintsDecimals (Modern.symbolEntry s)

namespace Footprint

/-- The file of a footprint has decimals for its numbers. -/
def PrintsDecimals (f : Footprint) : Schema → Prop
  | .legacy => Legacy.HaveDecimals (Legacy.footprint f)
  | .modern => Modern.PrintsDecimals (Modern.footprintFile f)

/-- The numbers that the file of a footprint is written with. -/
def printedNumbers (f : Footprint) : Schema → List Float
  | .legacy => Legacy.numbers f
  | .modern => Modern.numbers f

theorem printsDecimals_iff (f : Footprint) (schema : Schema) :
    f.PrintsDecimals schema ↔ ∀ x ∈ f.printedNumbers schema, InReach x := by
  cases schema with
  | legacy => exact Legacy.haveDecimals_footprint_iff f
  | modern => exact Modern.printsDecimals_footprintFile_iff f

theorem printsDecimals_of_below {f : Footprint} (h : AllBelow 600 f.numbers) (schema : Schema) :
    f.PrintsDecimals schema := by
  cases schema with
  | legacy => exact Legacy.haveDecimals_footprint h
  | modern => exact Modern.printsDecimals_footprintFile h

end Footprint

namespace Component

variable {c : Component} {o : Options} {r : Option Resolver}

theorem printsDecimals_of_toSymbol {s : Symbol} (h : (c.toSymbol o).run.value = .ok s) (schema : Schema) :
    s.PrintsDecimals schema := by
  cases schema with
  | legacy => exact Legacy.haveDecimals_symbol s
  | modern => exact Modern.printsDecimals_symbolEntry (inWords_toSymbol h)

/-- The footprint that the records of a component draw. -/
def drawnFootprint (c : Component) (r : Option Resolver) (source : FootprintSource) : Footprint :=
  (Board.ofLines ⟨.board source.origin, r⟩ source.shapes).value.finish c.info.footprintName

/-- A source of near numbers is drawn with near numbers, without models or with those of a directory. -/
theorem printsDecimals_drawnFootprint {source : FootprintSource} (hsource : AllBelow 256 source.numbers)
    (hr : ∀ resolve ∈ r, ∃ directory name, resolve = .inDirectory directory name) (c : Component) (schema : Schema) :
    (c.drawnFootprint r source).PrintsDecimals schema := by
  rw [FootprintSource.numbers, allBelow_append] at hsource
  obtain ⟨horigin, hlines⟩ := hsource
  have hresolver : ∀ resolve ∈ r, Resolver.KeepsNear resolve := by
    intro resolve hresolve
    obtain ⟨directory, name, rfl⟩ := hr resolve hresolve
    exact Resolver.keepsNear_inDirectory directory name
  have hboard := @Board.below_ofLines ⟨.board source.origin, r⟩ source.shapes (Frame.isNear_board horigin) hresolver
    hlines
  exact Footprint.printsDecimals_of_below (Board.below_finish hboard _) schema

/-- **Which generated texts have decimals for their numbers.** Those of symbols always do. The text of a footprint
does just if each of its numbers is finite and stays so when it is rounded; and so they are if the numbers that the
source is read to are near, and the models come from a directory. -/
theorem generate_decimals (c : Component) (o : Options) (r : Option Resolver) :
    (∀ text, (c.generateSymbol o).run.value = .ok text →
      ∃ s, (c.toSymbol o).run.value = .ok s ∧ text = s.render o.schema ∧ s.PrintsDecimals o.schema) ∧
    ∀ text, (c.generateFootprint o r).run.value = .ok text →
      ∃ source, c.footprint = some source ∧ text = (c.drawnFootprint r source).render o.schema ∧
        ((c.drawnFootprint r source).PrintsDecimals o.schema ↔
          ∀ x ∈ (c.drawnFootprint r source).printedNumbers o.schema, InReach x) ∧
        (AllBelow 256 source.numbers → (∀ resolve ∈ r, ∃ directory name, resolve = .inDirectory directory name) →
          (c.drawnFootprint r source).PrintsDecimals o.schema) := by
  constructor
  · intro text h
    rw [value_generateSymbol] at h
    cases hsymbol : (c.toSymbol o).run.value with
    | error e =>
      rw [hsymbol] at h
      nomatch h
    | ok s =>
      rw [hsymbol] at h
      exact ⟨s, rfl, (Except.ok.inj h).symm, printsDecimals_of_toSymbol hsymbol o.schema⟩
  · intro text h
    rw [value_generateFootprint] at h
    split at h
    · nomatch h
    · nomatch h
    · next source _ hsource =>
      split at h
      · nomatch h
      · refine ⟨source, hsource, (Except.ok.inj h).symm, Footprint.printsDecimals_iff _ _, fun hnear hr => ?_⟩
        exact printsDecimals_drawnFootprint hnear hr c o.schema

/-- A part drawn with a circle and a track has decimals in both of its texts. -/
theorem generate_decimals_dotted :
    (∃ text, (dotted.generateSymbol {}).run.value = .ok text ∧ Modern.PrintsDecimals text) ∧
    ∃ text, (dotted.generateFootprint {} none).run.value = .ok text ∧ Modern.PrintsDecimals text := by
  have hsymbol : (dotted.generateSymbol {}).run.value.isOk = true := by decide +kernel
  have hfootprint : (dotted.generateFootprint {} none).run.value.isOk = true := by decide +kernel
  have hnear : AllBelow 256 (FootprintSource.numbers ⟨["TRACK~1~1~10 20 30 40"], .zero⟩) := by decide +kernel
  obtain ⟨hsymbols, hfootprints⟩ := generate_decimals dotted {} none
  constructor
  · cases htext : (dotted.generateSymbol {}).run.value with
    | error e =>
      rw [htext] at hsymbol
      cases hsymbol
    | ok text =>
      obtain ⟨s, -, rfl, hdecimals⟩ := hsymbols text htext
      exact ⟨_, rfl, hdecimals⟩
  · cases htext : (dotted.generateFootprint {} none).run.value with
    | error e =>
      rw [htext] at hfootprint
      cases hfootprint
    | ok text =>
      obtain ⟨source, hsource, rfl, -, hdecimals⟩ := hfootprints text htext
      obtain rfl : _ = source := Option.some.inj hsource
      exact ⟨_, rfl, hdecimals hnear nofun⟩

/-- The document of a package with an origin on its canvas and with records. -/
def packageDocument (x y : String) (records : List String) : Value :=
  .object [("docType", .number (.integer Document.packageType)), ("title", .string "0603"),
    ("dataStr", .object [
      ("canvas", .string ("CA~0~0~0~0~0~0~0~0~0~0~0~0~0~0~0~" ++ x ++ "~" ++ y)),
      ("shape", .array (records.map .string))])]

/-- The document is imported to a component whose footprint is generated with something that is no number. -/
def PrintsNonNumber (document : Value) (r : Option Resolver) : Prop :=
  ∃ c text, (ofDocument document (.catalog "C1")).run.value = .ok c ∧
    (c.generateFootprint {} r).run.value = .ok text ∧ ¬ Modern.PrintsDecimals text

theorem printsNonNumber_of_drawn {document : Value}
    (h : ((ofDocument document (.catalog "C1")).run.value.toOption.bind fun c =>
      c.footprint.map fun source => (c.generateFootprint {} r).run.value.isOk &&
        !decide (∀ x ∈ Modern.numbers (c.drawnFootprint r source), InReach x)) = some true) :
    PrintsNonNumber document r := by
  cases hc : (ofDocument document (.catalog "C1")).run.value with
  | error e =>
    rw [hc] at h
    nomatch h
  | ok c =>
    rw [hc] at h
    obtain ⟨source, hsource, h⟩ := Option.map_eq_some_iff.mp h
    obtain ⟨hgenerates, hreach⟩ := Bool.and_eq_true_iff.mp h
    cases htext : (c.generateFootprint {} r).run.value with
    | error e =>
      rw [htext] at hgenerates
      nomatch hgenerates
    | ok text =>
      refine ⟨c, text, hc, htext, ?_⟩
      rw [value_generateFootprint, Options.validate_default, hsource] at htext
      simp only at htext
      split at htext
      · nomatch htext
      · obtain rfl := Except.ok.inj htext
        show ¬ Modern.PrintsDecimals (Modern.footprintFile (c.drawnFootprint r source))
        rw [Modern.printsDecimals_footprintFile_iff]
        simpa using hreach

/-- An origin at no number, a model turned by no number and a width that is finite but too large. -/
theorem prints_non_numbers :
    ({} : Options).Valid ∧
    PrintsNonNumber (packageDocument "nan" "3000" ["TRACK~1~1~0 0 10 0"]) none ∧
    PrintsNonNumber (packageDocument "4000" "3000"
      ["SVGNODE~\x7b\"attrs\":\x7b\"uuid\":\"m\",\"c_rotation\":\"nan,0,90\"\x7d\x7d"])
      (some (.inDirectory "models" none)) ∧
    PrintsNonNumber (packageDocument "4000" "3000" ["TRACK~1e307~1~0 0 10 0"]) none := by
  refine ⟨Options.validate_eq_ok_iff.mp Options.validate_default, ?_, ?_, ?_⟩ <;>
    exact printsNonNumber_of_drawn (by decide +kernel)

end Component

end EdaParts
