import EdaParts.Component.Generate

/-!
# Texts of symbols

What a symbol holds of free text, and where the symbol of a component has it from.

* `Symbol.texts`, `Symbol.LineFree` : all texts of a symbol, and that none of them is broken into lines;
* `Component.value_toSymbol` : which components have a symbol, and which one.
-/

namespace EdaParts

def Graphic.texts : Graphic → List String
  | .text s _ _ _ _ => [s]
  | .pin p => [p.name, p.number]
  | _ => []

namespace Symbol

def bodyTexts (s : Symbol) : List String :=
  s.fields.map SymbolField.value ++ s.graphics.flatMap Graphic.texts

/-- All texts. -/
def texts (s : Symbol) : List String :=
  s.name :: s.designator :: s.bodyTexts

/-- No text holds the end of a line. -/
def LineFree (s : Symbol) : Prop :=
  ∀ x ∈ s.texts, '\n' ∉ x.toList

theorem LineFree.of_mem_named {s : Symbol} {x : String} (hs : s.LineFree)
    (hx : x ∈ s.name :: s.bodyTexts) : '\n' ∉ x.toList := by
  rcases List.mem_cons.mp hx with rfl | hx
  · exact hs _ List.mem_cons_self
  · exact hs x (List.mem_cons_of_mem _ (List.mem_cons_of_mem _ hx))

end Symbol

/-- The options that leave everything out make sense. -/
theorem Options.validate_default : ({} : Options).validate = .ok () := by
  unfold validate
  rw [if_neg (by decide), if_neg (by decide)]

namespace Component

/-- The symbol that the records of a component draw. -/
def drawnSymbol (c : Component) (o : Options) (source : SymbolSource) : Symbol :=
  (Sheet.ofLines (Frame.schematic source.center o.symbolScale) source.shapes).value.finish
    o.symbolScale c.info source.size (o.footprintReference c.info.footprintName)

/-- A symbol is refused for the options, for lack of records, or for lack of a name. -/
theorem value_toSymbol (c : Component) (o : Options) :
    (c.toSymbol o).run.value =
      match o.validate, c.symbol with
      | .error e, _ => .error e
      | .ok (), none => .error (.missingData "component has no symbol data")
      | .ok (), some source =>
        if Text.isBlankText c.info.name then .error (.missingData "symbol name")
        else .ok (c.drawnSymbol o source) := by
  unfold toSymbol
  cases o.validate with
  | error e => rfl
  | ok u =>
    cases c.symbol with
    | none => rfl
    | some source =>
      by_cases hname : Text.isBlankText c.info.name = true
      · simp only [hname, if_true]
        rfl
      · simp only [hname]
        rfl

/-- A symbol is drawn by records. -/
theorem eq_drawnSymbol {c : Component} {o : Options} {s : Symbol} (h : (c.toSymbol o).run.value = .ok s) :
    ∃ source, s = c.drawnSymbol o source := by
  rw [value_toSymbol] at h
  split at h
  · cases h
  · cases h
  · next source _ _ =>
    split at h
    · cases h
    · exact ⟨source, (Except.ok.inj h).symm⟩

theorem value_generateSymbol (c : Component) (o : Options) :
    (c.generateSymbol o).run.value = (c.toSymbol o).run.value.map fun s => s.render o.schema := by
  unfold generateSymbol
  rw [ExceptT.run_bind, Logged.value_bind]
  cases (c.toSymbol o).run.value <;> rfl

end Component

end EdaParts
