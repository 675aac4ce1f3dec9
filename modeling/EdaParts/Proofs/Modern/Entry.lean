import EdaParts.Proofs.Decimal.Numeral
import EdaParts.Proofs.Modern.Expr
import EdaParts.Proofs.Store.EntrySpan
import EdaParts.Proofs.Symbol.Texts

/-!
# Entries of nested expressions

The printed expression of a symbol is an opening, a body, and the ending of an entry. All lines of the
body are indented, except in quoted texts.

* `wellFormed_symbol` : the expression of a symbol has nothing but words for atoms and heads;
* `bodyText`, `toList_symbolEntry` : what stands between opening and ending;
* `parenthesis_infix_body_iff` : a line of the body begins with a parenthesis just if a text has such
  a line;
* `isEntry_symbolEntry` : a symbol whose texts are not broken into lines prints as its entry.
-/

namespace EdaParts.Modern

open Text Modern.Expr EntryPattern

/-! ## The expression of a symbol -/

theorem isAtom_of_isNumeral {s : String} (h : Decimal.IsNumeral s.toList) : IsAtom s := by
  have hgaps : ['(', ')', '"', ' ', '\t', '\r', '\n'].all (fun c => !Decimal.isNumeralChar c) = true := by
    decide
  refine ⟨h.1, fun c hc => ?_⟩
  unfold isAtomChar
  rw [decide_eq_true_iff]
  intro hmem
  have hchar := List.all_eq_true.mp hgaps c hmem
  rw [h.2 c hc] at hchar
  cases hchar

@[simp] theorem wellFormed_number (x : Float) : (number x).WellFormed := by
  rw [number, wellFormed_atom]
  exact isAtom_of_isNumeral (Decimal.isNumeral_numberText x)

@[simp] theorem wellFormed_natural (n : Nat) : (natural n).WellFormed := by
  rw [natural, wellFormed_atom]
  exact isAtom_of_isNumeral (Decimal.isNumeral_toString_nat n)

@[simp] theorem wellFormed_coordinates (p : MilPoint) : AllWellFormed (coordinates p) := by
  simp [coordinates]

@[simp] theorem wellFormed_pointList (points : List MilPoint) : (pointList points).WellFormed := by
  rw [pointList, wellFormed_list, allWellFormed_iff]
  refine ⟨by decide, fun e he => ?_⟩
  obtain ⟨p, -, rfl⟩ := List.mem_map.mp he
  exact ⟨by decide, wellFormed_coordinates p⟩

@[simp] theorem wellFormed_font {size : Expr} (h : size.WellFormed) : (font size).WellFormed := by
  simp +decide [font, h]

@[simp] theorem wellFormed_hiddenMark (hidden : Bool) : AllWellFormed (hiddenMark hidden) := by
  cases hidden <;> simp +decide [hiddenMark]

theorem wellFormed_standardFont : standardFont.WellFormed :=
  wellFormed_font (by rw [wellFormed_atom]; decide)

theorem wellFormed_property (f : SymbolField) : (property f).WellFormed := by
  unfold property
  cases f.leftJustified <;>
    simp +decide [wellFormed_standardFont]

theorem wellFormed_pin (p : Pin) : (pin p).WellFormed := by
  unfold pin
  cases p.type <;>
    simp +decide [wellFormed_standardFont, length]

@[simp] theorem wellFormed_pen : pen.WellFormed := by
  simp +decide [pen]

theorem wellFormed_fill {style : String} (h : IsAtom style) : (fill style).WellFormed := by
  simp +decide [fill, h]

theorem wellFormed_graphic (g : Graphic) : (graphic g).WellFormed := by
  have hfill : ∀ style ∈ ["background", "none", "outline"], (fill style).WellFormed :=
    fun style h => wellFormed_fill ((by decide : ∀ s ∈ ["background", "none", "outline"], IsAtom s) style h)
  cases g with
  | pin p => exact wellFormed_pin p
  | polyline points filled => cases filled <;> simp_all +decide [graphic]
  | _ => simp_all +decide [graphic, length]

/-- **The expression of a symbol** can be printed as one. -/
theorem wellFormed_symbol (s : Symbol) : (symbol s).WellFormed := by
  have hfields : AllWellFormed (s.fields.map property) := by
    rw [allWellFormed_iff]
    intro e he
    obtain ⟨f, -, rfl⟩ := List.mem_map.mp he
    exact wellFormed_property f
  have hgraphics : AllWellFormed (s.graphics.map graphic) := by
    rw [allWellFormed_iff]
    intro e he
    obtain ⟨g, -, rfl⟩ := List.mem_map.mp he
    exact wellFormed_graphic g
  simp +decide [symbol, hfields, hgraphics]

/-! ## Line feeds in its texts -/

section
variable {c : Char}

theorem textsOf_coordinates (p : MilPoint) : textsOf (coordinates p) = [] := rfl

theorem textsOf_hiddenMark (hidden : Bool) : textsOf (hiddenMark hidden) = [] := by
  cases hidden <;> rfl

theorem textsOf_append (es fs : List Expr) : textsOf (es ++ fs) = textsOf es ++ textsOf fs := by
  rw [textsOf_eq_flatMap, textsOf_eq_flatMap, textsOf_eq_flatMap, List.flatMap_append]

theorem texts_property (f : SymbolField) : (property f).texts = [f.key.propertyName, f.value] := by
  unfold property
  cases f.leftJustified <;>
    simp [texts, textsOf, textsOf_append, textsOf_coordinates, textsOf_hiddenMark, natural,
      standardFont, font]

@[simp] theorem texts_pointList (points : List MilPoint) : (pointList points).texts = [] := by
  rw [pointList, texts, textsOf_eq_flatMap, List.flatMap_map]
  exact List.flatMap_eq_nil_iff.mpr fun p _ => rfl

/-- The bar over the name of a pin is drawn with other characters. -/
theorem infix_pinName (hc : c = '(' ∨ c = ')') (name : String) :
    ['\n', c] <:+: (pinName name).toList ↔ ['\n', c] <:+: name.toList := by
  have hskip : ∀ d xs, d ≠ '\n' → (['\n', c] <:+: d :: xs ↔ ['\n', c] <:+: xs) := by
    intro d xs hd
    rw [List.infix_cons_iff, List.cons_prefix_cons]
    simp [hd.symm]
  have hbrace : '\x7d' ≠ c := by rcases hc with rfl | rfl <;> decide
  unfold pinName
  split
  · next d cs h =>
    rw [String.toList_ofList, h, List.cons_append, List.cons_append, hskip _ _ (by decide),
      hskip _ _ (by decide), hskip _ _ (by decide), pair_infix_append]
    simp [List.infix_singleton_iff, hbrace]
  · rfl

theorem infix_texts_graphic (hc : c = '(' ∨ c = ')') (g : Graphic) :
    (∃ t ∈ (graphic g).texts, ['\n', c] <:+: t.toList) ↔ ∃ x ∈ g.texts, ['\n', c] <:+: x.toList := by
  cases g with
  | pin p =>
    have htexts : (graphic (.pin p)).texts = [pinName p.name, p.number] := by
      simp [graphic, pin, texts, textsOf, textsOf_append, textsOf_coordinates, natural, length, number,
        standardFont, font]
    rw [htexts]
    simp [Graphic.texts, infix_pinName hc]
  | text t position angle size hidden =>
    have htexts : (graphic (.text t position angle size hidden)).texts = [t] := by
      simp [graphic, texts, textsOf, textsOf_append, textsOf_coordinates, textsOf_hiddenMark, font,
        number]
    rw [htexts]
    rfl
  | _ => simp [graphic, texts, textsOf, Graphic.texts, coordinates, number, pen, fill, length]

/-! ## Opening, body and ending -/

def opening (name : String) : List Char :=
  ("(symbol " ++ quote name ++ " ").toList

/-- The expressions on lines of their own in the entry of a symbol. -/
def bodyExprs (s : Symbol) : List Expr :=
  s.fields.map property ++
    [block "symbol" [quoted (s.name ++ "_" ++ toString s.part ++ "_1")] (s.graphics.map graphic)]

/-- The text from the name to the last line but one. -/
def bodyText (s : Symbol) : List Char :=
  "(in_bom yes) (on_board yes)".toList ++ (printBody 1 (bodyExprs s)).toList

theorem openings_ofName (name : String) : (ofName .modern name).openings = [opening name] := rfl

theorem toList_symbolEntry (s : Symbol) :
    (symbolEntry s).toList = opening s.name ++ (bodyText s ++ ['\n'] ++ ([')'] ++ ['\n'])) := by
  have hsymbol : symbol s = block "symbol"
      [quoted s.name, list "in_bom" [atom "yes"], list "on_board" [atom "yes"]] (bodyExprs s) := rfl
  have hbom : (list "in_bom" [atom "yes"]).print 0 = "(in_bom yes)" := by decide
  have hboard : (list "on_board" [atom "yes"]).print 0 = "(on_board yes)" := by decide
  have hname : (quoted s.name).print 0 = quote s.name := by rw [print]
  have hitems : printInline 0 [quoted s.name, list "in_bom" [atom "yes"], list "on_board" [atom "yes"]] =
      " " ++ quote s.name ++ (" " ++ "(in_bom yes)" ++ (" " ++ "(on_board yes)" ++ "")) := by
    rw [printInline, printInline, printInline, printInline, hname, hbom, hboard]
  rw [symbolEntry, hsymbol, print, hitems]
  unfold opening bodyText newline
  generalize printBody (0 + 1) (bodyExprs s) = body
  simp

theorem mirrors_bodyText (hc : c = '(' ∨ c = ')') (s : Symbol) :
    Mirrors c (bodyText s) (textsOf (bodyExprs s)) := by
  have hwell : AllWellFormed (bodyExprs s) := by
    have hsymbol := wellFormed_symbol s
    rw [symbol, wellFormed_block] at hsymbol
    exact hsymbol.2.2
  have hitems : Mirrors c "(in_bom yes) (on_board yes)".toList [] := mirrors_of_not_mem (by decide)
  exact hitems.append (mirrors_printBody hc 0 hwell)

/-- The number of the part adds no line to the name. -/
theorem infix_unitName_iff (hc : c = '(' ∨ c = ')') (s : Symbol) :
    ['\n', c] <:+: (s.name ++ "_" ++ toString s.part ++ "_1").toList ↔ ['\n', c] <:+: s.name.toList := by
  have hpart : '\n' ∉ (toString s.part).toList :=
    Decimal.not_mem_of_isNumeral (Decimal.isNumeral_toString_nat _) (by decide)
  have hmark : '_' ∉ ['\n', c] := by rcases hc with rfl | rfl <;> decide
  have hcut : (s.name ++ "_" ++ toString s.part ++ "_1").toList =
      s.name.toList ++ '_' :: ((toString s.part).toList ++ '_' :: ['1']) := by simp
  have hnumber : ¬ ['\n', c] <:+: (toString s.part).toList := fun h => hpart (h.subset (by simp))
  have htail : ¬ ['\n', c] <:+: ['1'] := by simp [List.infix_singleton_iff]
  rw [hcut, infix_append_cons hmark, infix_append_cons hmark]
  simp only [hnumber, htail, or_false]

theorem not_infix_propertyName (key : FieldKey) : ¬ ['\n', c] <:+: key.propertyName.toList := by
  intro hin
  have hplain : '\n' ∉ key.propertyName.toList := by cases key <;> decide
  exact hplain (hin.subset (by simp))

/-- The texts of the body are the name and those of fields and graphics, with others that are plain. -/
theorem infix_textsOf_body (hc : c = '(' ∨ c = ')') (s : Symbol) :
    (∃ t ∈ textsOf (bodyExprs s), ['\n', c] <:+: t.toList) ↔
      ∃ x ∈ s.name :: s.bodyTexts, ['\n', c] <:+: x.toList := by
  have htexts : textsOf (bodyExprs s) = (s.fields.flatMap fun f => [f.key.propertyName, f.value]) ++
      (s.name ++ "_" ++ toString s.part ++ "_1") :: s.graphics.flatMap fun g => (graphic g).texts := by
    simp [bodyExprs, textsOf_eq_flatMap, texts_property, texts, List.flatMap_map]
  rw [htexts]
  constructor
  · rintro ⟨t, ht, hin⟩
    simp only [List.mem_append, List.mem_flatMap, List.mem_cons, List.not_mem_nil, or_false] at ht
    rcases ht with ⟨f, hf, rfl | rfl⟩ | rfl | ⟨g, hg, ht⟩
    · exact absurd hin (not_infix_propertyName f.key)
    · exact ⟨f.value, by simpa [Symbol.bodyTexts] using Or.inr (Or.inl ⟨f, hf, rfl⟩), hin⟩
    · exact ⟨s.name, List.mem_cons_self, (infix_unitName_iff hc s).mp hin⟩
    · obtain ⟨x, hx, hin⟩ := (infix_texts_graphic hc g).mp ⟨t, ht, hin⟩
      exact ⟨x, by simpa [Symbol.bodyTexts] using Or.inr (Or.inr ⟨g, hg, hx⟩), hin⟩
  · rintro ⟨x, hx, hin⟩
    simp only [Symbol.bodyTexts, List.mem_cons, List.mem_append, List.mem_map,
      List.mem_flatMap] at hx
    rcases hx with rfl | ⟨f, hf, rfl⟩ | ⟨g, hg, hx⟩
    · exact ⟨_, List.mem_append_right _ List.mem_cons_self, (infix_unitName_iff hc s).mpr hin⟩
    · refine ⟨f.value, List.mem_append_left _ (List.mem_flatMap.mpr ⟨f, hf, ?_⟩), hin⟩
      exact List.mem_cons_of_mem _ List.mem_cons_self
    · obtain ⟨t, ht, hin⟩ := (infix_texts_graphic hc g).mpr ⟨x, hx, hin⟩
      refine ⟨t, List.mem_append_right _ (List.mem_cons_of_mem _ ?_), hin⟩
      exact List.mem_flatMap.mpr ⟨g, hg, ht⟩

/-- **A line of the body begins with a parenthesis** just if a text of the symbol has such a line. -/
theorem parenthesis_infix_body_iff (hc : c = '(' ∨ c = ')') (s : Symbol) :
    ['\n', c] <:+: bodyText s ++ ['\n'] ↔ ∃ x ∈ s.name :: s.bodyTexts, ['\n', c] <:+: x.toList := by
  have hfeed : '\n' ≠ c := by rcases hc with rfl | rfl <;> decide
  rw [← infix_textsOf_body hc, ← (mirrors_bodyText hc s).occurs, pair_infix_append]
  simp [List.infix_singleton_iff, hfeed]

end

/-! ## The entry of a symbol -/

/-- The search takes an entry whole just if no text of the symbol has a line that begins like its
ending. -/
theorem here?_symbolEntry (s : Symbol) (ys : List Char) :
    ∃ m a, (ofName .modern s.name).here? ((symbolEntry s).toList ++ ys) = some (m, a) ∧
      ((m, a) = ((symbolEntry s).toList, ys) ↔
        ¬ ∃ x ∈ s.name :: s.bodyTexts, ['\n', ')'] <:+: x.toList) := by
  have hbody : beginsLine false (bodyText s ++ ['\n']) = true := by
    rw [beginsLine_append]
    rfl
  have hending : (ofName .modern s.name).ending = [')'] := rfl
  have hne : (ofName .modern s.name).ending ≠ [] := by
    rw [hending]
    decide
  have hline : '\n' ∉ (ofName .modern s.name).ending := by
    rw [hending]
    decide
  rw [toList_symbolEntry, ← parenthesis_infix_body_iff (Or.inr rfl), ← hending]
  exact here?_whole_iff (openings_ofName s.name) hne hline hbody

theorem beginsLine_symbolEntry (fresh : Bool) (s : Symbol) :
    beginsLine fresh (symbolEntry s).toList = true := by
  rw [toList_symbolEntry, ← List.append_assoc, ← List.append_assoc, beginsLine_append]
  rfl

theorem opens_iff {n : String} {cs : List Char} : (ofName .modern n).Opens cs ↔ opening n <+: cs := by
  unfold Opens
  rw [openings_ofName]
  simp

theorem opening_eq (name : String) :
    opening name = "(symbol ".toList ++ ((quote name).toList ++ ' ' :: []) := by
  unfold opening
  simp

theorem mirrors_opening {c : Char} (hc : c = '(' ∨ c = ')') (name : String) :
    Mirrors c (opening name) [name] := by
  have hfirst : Mirrors c "(symbol ".toList [] := mirrors_of_not_mem (by decide)
  have hgap : Mirrors c [' '] [] := mirrors_of_not_mem (by decide)
  rw [opening_eq]
  exact hfirst.append ((mirrors_quote hc name).append hgap)

/-- No line of an entry but the first begins with an opening parenthesis. -/
theorem not_infix_parenthesis {s : Symbol} (hs : s.LineFree) :
    ¬ ['\n', '('] <:+: (symbolEntry s).toList := by
  have hfree : ¬ ∃ x ∈ s.name :: s.bodyTexts, ['\n', '('] <:+: x.toList := by
    rintro ⟨x, hx, hin⟩
    exact hs.of_mem_named hx (hin.subset (by decide))
  have hopening := mirrors_opening (Or.inl rfl) s.name
  have hbody := (parenthesis_infix_body_iff (Or.inl rfl) s).not.mpr hfree
  have hfirst : ¬ ['\n', '('] <:+: opening s.name := by
    rw [hopening.occurs]
    rintro ⟨x, hx, hin⟩
    rw [List.mem_singleton] at hx
    exact hfree ⟨x, by rw [hx]; exact List.mem_cons_self, hin⟩
  rw [toList_symbolEntry, pair_infix_append, pair_infix_append]
  rintro (hin | (hin | hin | ⟨-, hhead⟩) | ⟨hlast, -⟩)
  · exact hfirst hin
  · exact hbody hin
  · exact absurd hin (by decide)
  · exact absurd hhead (by decide)
  · exact hopening.last hlast

/-- The search for another name passes an entry whose texts are not broken into lines. -/
theorem passes_symbolEntry {s : Symbol} (hs : s.LineFree) {n : String} (hn : n ≠ s.name)
    (ys : List Char) : Passes (ofName .modern n).Opens true (symbolEntry s).toList ys := by
  refine Passes.of_false ?_ fun h => ?_
  · have hlines : Passes (['('] <+: ·) false (symbolEntry s).toList ys :=
      (passes_prefix_iff (by decide) (by decide) (beginsLine_symbolEntry false s)).mpr
        (not_infix_parenthesis hs)
    refine hlines.mono fun cs h => ?_
    have hp := opens_iff.mp h
    rw [opening_eq] at hp
    exact (List.prefix_append ['('] _).trans hp
  · have hp := opens_iff.mp h
    rw [toList_symbolEntry, opening_eq, opening_eq, List.append_assoc, List.append_assoc,
      List.prefix_append_right_inj, List.append_assoc, List.cons_append] at hp
    exact hn (eq_of_prefix_quote hp)

/-- **A symbol prints as its entry** if no text of it is broken into lines. -/
theorem isEntry_symbolEntry {s : Symbol} (hs : s.LineFree) :
    IsEntry .modern s.name (symbolEntry s).toList := by
  have hfree : ¬ ∃ x ∈ s.name :: s.bodyTexts, ['\n', ')'] <:+: x.toList := by
    rintro ⟨x, hx, hin⟩
    exact hs.of_mem_named hx (hin.subset (by decide))
  refine ⟨fun ys => ?_, fun n hn _ ys => passes_symbolEntry hs hn ys, beginsLine_symbolEntry true s⟩
  obtain ⟨m, a, hm, hwhole⟩ := here?_symbolEntry s ys
  rw [hm, hwhole.mpr hfree]

/-! ## Header and footer -/

theorem passes_libraryHeader (n : String) (ys : List Char) :
    Passes (ofName .modern n).Opens true libraryHeader.toList ys := by
  obtain ⟨cs, hcs, hline⟩ : ∃ cs, libraryHeader.toList = ('(' :: 'k' :: cs) ++ ['\n'] ∧
      '\n' ∉ '(' :: 'k' :: cs := by
    refine ⟨(libraryHeader.toList.drop 2).dropLast, by decide, by decide⟩
  rw [hcs]
  refine Passes.line hline fun h => ?_
  have hp := opens_iff.mp h
  rw [opening_eq] at hp
  simp at hp

theorem noLine_libraryFooter (n : String) :
    NoLine (ofName .modern n).Opens true libraryFooter.toList := by
  have hnot : ∀ cs, ¬ (ofName .modern n).Opens (')' :: cs) := by
    intro cs h
    have hp := opens_iff.mp h
    rw [opening_eq] at hp
    simp at hp
  have hnil : ¬ (ofName .modern n).Opens [] := by
    intro h
    have hp := opens_iff.mp h
    rw [opening_eq] at hp
    simp at hp
  have hfooter : libraryFooter.toList = [')', '\n'] := rfl
  rw [hfooter, noLine_cons, noLine_cons, noLine_nil]
  exact ⟨fun h => hnot _ h.2, by simp, fun h => hnil h.2⟩

end EdaParts.Modern
