import EdaParts.Proofs.Decimal.Numeral
import EdaParts.Proofs.Legacy.Lines
import EdaParts.Proofs.Store.EntrySpan
import EdaParts.Proofs.Symbol.Texts

/-!
# Entries of lines

The printed lines of a symbol are an opening, a body, and the ending of an entry. Free text is all
that can hold a line feed in them, so it is all that can end an entry early.

* `Line.IsPlain` : a line of words without line feeds, `infix_print_parts` : a line in which some words
  are plain;
* `bodyLines`, `toList_symbolEntry` : the lines between opening and ending;
* `ending_infix_body_iff` : the body holds a line like the ending just if a text does;
* `isEntry_symbolEntry` : a symbol whose texts are not broken into lines prints as its entry.
-/

namespace EdaParts.Legacy

open Text Word EntryPattern

variable {m : List Char} {s : Symbol}

/-! ## Words without line feeds -/

/-- A word that no line feed stands in. -/
def Word.IsPlain (w : Word) : Prop := '\n' ∉ w.text.toList

instance (w : Word) : Decidable w.IsPlain :=
  inferInstanceAs (Decidable ('\n' ∉ w.text.toList))

def Line.IsPlain (l : Line) : Prop := ∀ w ∈ l, w.IsPlain

instance (l : Line) : Decidable l.IsPlain :=
  inferInstanceAs (Decidable (∀ w ∈ l, w.IsPlain))

@[simp] theorem isPlain_cons (w : Word) (l : Line) :
    Line.IsPlain (w :: l) ↔ w.IsPlain ∧ Line.IsPlain l := List.forall_mem_cons

@[simp] theorem isPlain_append (l k : Line) :
    Line.IsPlain (l ++ k) ↔ Line.IsPlain l ∧ Line.IsPlain k := List.forall_mem_append

theorem isPlain_of_isNumeral {text : String} (h : Decimal.IsNumeral text.toList) :
    (bare text).IsPlain :=
  Decimal.not_mem_of_isNumeral h (by decide)

@[simp] theorem isPlain_integer (n : Int) : (integer n).IsPlain :=
  isPlain_of_isNumeral (Decimal.isNumeral_toString_int n)

@[simp] theorem isPlain_tenths (x : Float) : (tenths x).IsPlain := isPlain_integer _

@[simp] theorem isPlain_number (x : Float) : (number x).IsPlain :=
  isPlain_of_isNumeral (Decimal.isNumeral_numberText x)

@[simp] theorem isPlain_coordinates (p : MilPoint) : Line.IsPlain (coordinates p) := by
  have hnil : Line.IsPlain [] := by decide
  simp [coordinates, hnil]

@[simp] theorem isPlain_pointList (points : List MilPoint) : Line.IsPlain (pointList points) := by
  unfold pointList
  split
  · decide
  · intro w hw
    obtain ⟨p, -, hp⟩ := List.mem_flatMap.mp hw
    exact isPlain_coordinates p w hp

/-- A mark with a line feed occurs in the words of a line that are not plain. -/
theorem infix_print_parts (hm : IsMark m) (hlf : '\n' ∈ m) {pre mid post : Line}
    (hpre : pre.IsPlain) (hpost : post.IsPlain) :
    m <:+: (Line.print (pre ++ mid ++ post)).toList ↔ ∃ w ∈ mid, m <:+: w.text.toList := by
  rw [infix_print_line hm]
  constructor
  · rintro ⟨w, hw, hin⟩
    rcases List.mem_append.mp hw with hw | hw
    · rcases List.mem_append.mp hw with hw | hw
      · exact absurd (hin.subset hlf) (hpre w hw)
      · exact ⟨w, hw, hin⟩
    · exact absurd (hin.subset hlf) (hpost w hw)
  · rintro ⟨w, hw, hin⟩
    exact ⟨w, List.mem_append_left _ (List.mem_append_right _ hw), hin⟩

/-- A mark with a line feed does not occur in a line of plain words. -/
theorem not_infix_print (hm : IsMark m) (hlf : '\n' ∈ m) {l : Line} (h : l.IsPlain) :
    ¬ m <:+: l.print.toList := by
  rw [infix_print_line hm]
  rintro ⟨w, hw, hin⟩
  exact h w hw (hin.subset hlf)

theorem isMark_lineFeed : IsMark ['\n'] :=
  ⟨by decide, by decide, by decide, by decide, by decide⟩

theorem lineFeed_not_mem_print {l : Line} (hl : l.IsPlain) : '\n' ∉ l.print.toList := by
  intro hmem
  exact not_infix_print isMark_lineFeed (by decide) hl ((List.singleton_infix_iff _ _).mpr hmem)

/-! ## The lines of fields and graphics -/

theorem infix_field (hm : IsMark m) (hlf : '\n' ∈ m) (f : SymbolField) :
    m <:+: (field f).print.toList ↔ m <:+: f.value.toList := by
  have hfirst : Line.IsPlain [bare ("F" ++ toString f.key.number)] := by
    cases f.key <;> decide
  have hnames : Line.IsPlain (f.key.legacyName?.toList.map quoted) := by
    cases f.key <;> decide
  have hstyle : Line.IsPlain [integer fieldTextSize, bare "H",
      bare (if f.visible then "V" else "I"), bare (if f.leftJustified then "L" else "C"),
      bare "CNN"] := by
    cases f.visible <;> cases f.leftJustified <;> decide
  have hline : field f = [bare ("F" ++ toString f.key.number)] ++ [quoted f.value] ++
      (coordinates f.position ++ ([integer fieldTextSize, bare "H",
        bare (if f.visible then "V" else "I"), bare (if f.leftJustified then "L" else "C"),
        bare "CNN"] ++ f.key.legacyName?.toList.map quoted)) := by
    simp [field]
  have hpost := (isPlain_append _ _).mpr
    ⟨isPlain_coordinates f.position, (isPlain_append _ _).mpr ⟨hstyle, hnames⟩⟩
  rw [hline, infix_print_parts hm hlf hfirst hpost]
  simp [Word.text]

theorem lineFeed_mem_field_iff (f : SymbolField) : '\n' ∈ (field f).print.toList ↔ '\n' ∈ f.value.toList := by
  rw [← List.singleton_infix_iff, ← List.singleton_infix_iff]
  exact infix_field isMark_lineFeed (by decide) f

/-- A graphic without texts is a line of plain words. -/
theorem isPlain_graphic {part : Nat} {g : Graphic} (hg : g.texts = []) :
    (graphic part g).IsPlain := by
  cases g with
  | text t position angle size hidden => cases hg
  | pin p => cases hg
  | rectangle start stop => simp +decide [graphic]
  | circle center radius => simp +decide [graphic]
  | polyline points filled => cases filled <;> simp +decide [graphic]
  | arc center radius start mid stop => simp +decide [graphic]
  | bezier p0 p1 p2 p3 => simp +decide [graphic]

theorem infix_graphic (hm : IsMark m) (hlf : '\n' ∈ m) (part : Nat) (g : Graphic) :
    m <:+: (graphic part g).print.toList ↔ ∃ x ∈ g.texts, m <:+: x.toList := by
  have hplain : g.texts = [] →
      (m <:+: (graphic part g).print.toList ↔ ∃ x ∈ g.texts, m <:+: x.toList) := by
    intro hg
    have hnot := not_infix_print hm hlf (@isPlain_graphic part _ hg)
    simp [hg, hnot]
  cases g with
  | text t position angle size hidden =>
    have hpre : Line.IsPlain ([bare "T", integer angle] ++ coordinates position ++
        [integer size, bare (if hidden then "1" else "0"), integer part, bare "0"]) := by
      cases hidden <;> simp +decide
    have hpost : Line.IsPlain (bareWords ["Normal", "0", "C", "C"]) := by decide
    have hline : graphic part (.text t position angle size hidden) =
        ([bare "T", integer angle] ++ coordinates position ++
          [integer size, bare (if hidden then "1" else "0"), integer part, bare "0"]) ++
        [free t] ++ bareWords ["Normal", "0", "C", "C"] := by
      simp [graphic]
    rw [hline, infix_print_parts hm hlf hpre hpost]
    simp [Graphic.texts, infix_free hm]
  | pin p =>
    have hpre : Line.IsPlain [bare "X"] := by decide
    have hpost : Line.IsPlain (coordinates p.position ++
        [integer p.length, bare (pinOrientation p.orientation), integer pinTextSize,
          integer pinTextSize, integer part, bare "0", bare (pinType p.type)]) := by
      cases p.orientation <;> cases p.type <;> simp +decide
    have hline : graphic part (.pin p) = [bare "X"] ++ [free p.name, free p.number] ++
        (coordinates p.position ++
          [integer p.length, bare (pinOrientation p.orientation), integer pinTextSize,
            integer pinTextSize, integer part, bare "0", bare (pinType p.type)]) := by
      simp [graphic]
    rw [hline, infix_print_parts hm hlf hpre hpost]
    simp [Graphic.texts, infix_free hm]
  | _ => exact hplain rfl

/-! ## Opening, body and ending -/

/-- The banner and the beginning of the line after it, up to the name of the entry. -/
def opening (name : String) : List Char :=
  ("#\n# " ++ name ++ "\n#\n" ++ ("DEF " ++ name ++ " ")).toList

/-- The beginning of the last line of an entry. -/
def ending : List Char := "ENDDEF".toList

/-- The line that an opening begins, without it. -/
def settings (s : Symbol) : Line :=
  bare s.designator :: (bareWords ["0", "40", "Y", "Y"] ++ [integer s.part] ++ bareWords ["F", "N"])

/-- The lines from the settings to the last but one. -/
def bodyLines (s : Symbol) : List Line :=
  settings s :: (s.fields.map field ++ [[bare "DRAW"]] ++ s.graphics.map (graphic s.part) ++
    [[bare "ENDDRAW"]])

theorem openings_ofName (name : String) :
    (ofName .legacy name).openings = [opening name, ("DEF " ++ name ++ " ").toList] := rfl

/-- The lines of a symbol, around those that follow its settings. -/
theorem symbol_eq (s : Symbol) :
    symbol s = [bare "#"] :: [bare "#", bare s.name] :: [bare "#"] ::
      (bare "DEF" :: bare s.name :: settings s) :: ((bodyLines s).tail ++ [[bare "ENDDEF"]]) := by
  simp [symbol, bodyLines, settings]

theorem toList_symbolEntry (s : Symbol) :
    (symbolEntry s).toList = opening s.name ++ ((print (bodyLines s)).toList ++ (ending ++ ['\n'])) := by
  obtain ⟨rest, hsettings⟩ : ∃ rest, settings s = bare s.designator :: rest := ⟨_, rfl⟩
  have hbody : bodyLines s = settings s :: (bodyLines s).tail := rfl
  have hnil : (print []).toList = [] := rfl
  have hhash : "#".toList = ['#'] := rfl
  have hdef : "DEF".toList = ['D', 'E', 'F'] := rfl
  have hbanner : "#\n# ".toList = ['#', '\n', '#', ' '] := rfl
  have hname : "\n#\n".toList = ['\n', '#', '\n'] := rfl
  have hword : "DEF ".toList = ['D', 'E', 'F', ' '] := rfl
  have hblank : " ".toList = [' '] := rfl
  rw [symbolEntry, symbol_eq, hbody, hsettings]
  simp only [toList_print_cons, toList_print_append, toList_print_line_cons, print_line_singleton,
    opening, ending, Word.print, String.toList_append, List.append_assoc, List.cons_append,
    List.nil_append, hnil, hhash, hdef, hbanner, hname, hword, hblank, List.tail_cons]

/-! ## Line feeds in the body -/

theorem infix_settings (hm : IsMark m) (hlf : '\n' ∈ m) :
    m <:+: (settings s).print.toList ↔ m <:+: s.designator.toList := by
  have hpre : Line.IsPlain [] := by decide
  have hpost : Line.IsPlain
      (bareWords ["0", "40", "Y", "Y"] ++ [integer s.part] ++ bareWords ["F", "N"]) := by
    simp +decide
  have hline : settings s = [] ++ [bare s.designator] ++
      (bareWords ["0", "40", "Y", "Y"] ++ [integer s.part] ++ bareWords ["F", "N"]) := rfl
  rw [hline, infix_print_parts hm hlf hpre hpost]
  simp [Word.text]

/-- Marks with a line feed occur in lines of the body as they do in texts. -/
theorem infix_bodyLines (hm : IsMark m) (hlf : '\n' ∈ m) :
    (∃ l ∈ bodyLines s, m <:+: l.print.toList) ↔
      ∃ x ∈ s.designator :: s.bodyTexts, m <:+: x.toList := by
  have hdraw : ¬ m <:+: (Line.print [bare "DRAW"]).toList := not_infix_print hm hlf (by decide)
  have henddraw : ¬ m <:+: (Line.print [bare "ENDDRAW"]).toList := not_infix_print hm hlf (by decide)
  constructor
  · rintro ⟨l, hl, hin⟩
    simp only [bodyLines, List.mem_cons, List.mem_append, List.mem_map, List.not_mem_nil,
      or_false] at hl
    rcases hl with rfl | ((⟨f, hf, rfl⟩ | rfl) | ⟨g, hg, rfl⟩) | rfl
    · exact ⟨_, List.mem_cons_self, (infix_settings hm hlf).mp hin⟩
    · refine ⟨f.value, List.mem_cons_of_mem _ (List.mem_append_left _ ?_), ?_⟩
      · exact List.mem_map_of_mem hf
      · exact (infix_field hm hlf f).mp hin
    · exact absurd hin hdraw
    · obtain ⟨x, hx, hin⟩ := (infix_graphic hm hlf _ g).mp hin
      refine ⟨x, List.mem_cons_of_mem _ (List.mem_append_right _ ?_), hin⟩
      exact List.mem_flatMap.mpr ⟨g, hg, hx⟩
    · exact absurd hin henddraw
  · rintro ⟨x, hx, hin⟩
    simp only [Symbol.bodyTexts, List.mem_cons, List.mem_append, List.mem_map,
      List.mem_flatMap] at hx
    rcases hx with rfl | ⟨f, hf, rfl⟩ | ⟨g, hg, hx⟩
    · exact ⟨settings s, List.mem_cons_self, (infix_settings hm hlf).mpr hin⟩
    · refine ⟨field f, ?_, (infix_field hm hlf f).mpr hin⟩
      simp only [bodyLines, List.mem_cons, List.mem_append, List.mem_map]
      exact Or.inr (Or.inl (Or.inl (Or.inl ⟨f, hf, rfl⟩)))
    · refine ⟨graphic s.part g, ?_, (infix_graphic hm hlf s.part g).mpr ⟨x, hx, hin⟩⟩
      simp only [bodyLines, List.mem_cons, List.mem_append, List.mem_map]
      exact Or.inr (Or.inl (Or.inr ⟨g, hg, rfl⟩))

/-! ## Where lines of the body begin -/

/-- What the first line of an opening, its last line and an ending begin with. -/
def lineMarks : List (List Char) := [['#'], ['D', 'E'], ending]

/-- No line but the first of the body begins like an opening or an ending. -/
theorem not_prefix_of_mem_tail {k : List Char} (hk : k ∈ lineMarks) {l : Line}
    (hl : l ∈ (bodyLines s).tail) : ¬ k <+: l.print.toList := by
  have hblank : ' ' ∉ k := (by decide : ∀ k ∈ lineMarks, ' ' ∉ k) k hk
  have hwords : ∀ text ∈ ["DRAW", "ENDDRAW", "S", "C", "P", "A", "B", "T", "X"],
      ∀ k ∈ lineMarks, ¬ k <+: text.toList := by decide
  have hfields : ∀ key ∈ FieldKey.all, ∀ k ∈ lineMarks,
      ¬ k <+: ("F" ++ toString key.number).toList := by decide
  simp only [bodyLines, List.tail_cons, List.mem_cons, List.mem_append, List.mem_map,
    List.not_mem_nil, or_false] at hl
  rcases hl with ((⟨f, -, rfl⟩ | rfl) | ⟨g, -, rfl⟩) | rfl
  · have hkey : f.key ∈ FieldKey.all := by cases f.key <;> decide
    rw [field, List.cons_append, List.cons_append, List.cons_append, prefix_print_line hblank]
    exact hfields _ hkey k hk
  · rw [prefix_print_line hblank]
    exact hwords _ (by decide) k hk
  · obtain ⟨text, htext, rest, hline⟩ : ∃ text ∈ ["S", "C", "P", "A", "B", "T", "X"], ∃ rest,
        graphic s.part g = bare text :: rest := by
      cases g <;> exact ⟨_, by decide, _, rfl⟩
    rw [hline, prefix_print_line hblank]
    exact hwords text (List.mem_cons_of_mem _ (List.mem_cons_of_mem _ htext)) k hk
  · rw [prefix_print_line hblank]
    exact hwords _ (by decide) k hk

/-- **A line of the body is like the ending of an entry** just if a text of the symbol has such a
line. -/
theorem ending_infix_body_iff :
    '\n' :: ending <:+: (print (bodyLines s)).toList ↔
      ∃ x ∈ s.designator :: s.bodyTexts, '\n' :: ending <:+: x.toList := by
  have hm : IsMark ('\n' :: ending) := ⟨by decide, by decide, by decide, by decide, by decide⟩
  have hbody : bodyLines s = settings s :: (bodyLines s).tail := rfl
  rw [← infix_bodyLines hm (by decide), hbody, lineFeed_infix_print (by decide) (by decide)]
  constructor
  · rintro (hin | ⟨l, hl, hp⟩)
    · exact hin
    · exact absurd hp (not_prefix_of_mem_tail (by decide) hl)
  · exact Or.inl

/-! ## The entry of a symbol -/

/-- The search takes an entry whole just if no text of the symbol has a line like the ending. -/
theorem here?_symbolEntry (s : Symbol) (ys : List Char) :
    ∃ m a, (ofName .legacy s.name).here? ((symbolEntry s).toList ++ ys) = some (m, a) ∧
      ((m, a) = ((symbolEntry s).toList, ys) ↔
        ¬ ∃ x ∈ s.designator :: s.bodyTexts, '\n' :: ending <:+: x.toList) := by
  have hbody : beginsLine false (print (bodyLines s)).toList = true := beginsLine_print _ _ _
  have hending : (ofName .legacy s.name).ending = ending := rfl
  have hne : (ofName .legacy s.name).ending ≠ [] := by
    rw [hending]
    decide
  have hline : '\n' ∉ (ofName .legacy s.name).ending := by
    rw [hending]
    decide
  rw [toList_symbolEntry, ← ending_infix_body_iff, ← hending]
  exact here?_whole_iff (openings_ofName s.name) hne hline hbody

/-- No line of the body of a symbol is broken if its texts are not. -/
theorem lineFeed_not_mem (hs : s.LineFree) {l : Line} (hl : l ∈ bodyLines s) :
    '\n' ∉ l.print.toList := by
  intro hmem
  obtain ⟨x, hx, hin⟩ := (infix_bodyLines isMark_lineFeed (by decide)).mp
    ⟨l, hl, (List.singleton_infix_iff _ _).mpr hmem⟩
  exact hs x (List.mem_cons_of_mem _ hx) ((List.singleton_infix_iff _ _).mp hin)

theorem opens_iff {n : String} {cs : List Char} :
    (ofName .legacy n).Opens cs ↔
      ['#', '\n', '#', ' '] ++ ((n.toList ++ ['\n', '#', '\n', 'D', 'E', 'F']) ++
        ' ' :: (n.toList ++ [' '])) <+: cs ∨
      ['D', 'E', 'F', ' '] ++ (n.toList ++ ' ' :: []) <+: cs := by
  have hbanner : opening n = ['#', '\n', '#', ' '] ++ ((n.toList ++ ['\n', '#', '\n', 'D', 'E', 'F']) ++
      ' ' :: (n.toList ++ [' '])) := by
    unfold opening
    simp
  have hplain : ("DEF " ++ n ++ " ").toList = ['D', 'E', 'F', ' '] ++ (n.toList ++ ' ' :: []) := by
    simp
  unfold Opens
  rw [openings_ofName, hbanner, hplain]
  simp only [List.mem_cons, List.not_mem_nil, or_false, exists_eq_or_imp, exists_eq_left]

section
variable {n : String}

/-- The banner of one name does not begin an entry of another. -/
theorem not_opens_banner (hn : n ≠ s.name) (hname : ' ' ∉ s.name.toList) (hblank : ' ' ∉ n.toList)
    (ls : List Line) (ys : List Char) :
    ¬ (ofName .legacy n).Opens ((Line.print [bare "#"]).toList ++ '\n' ::
      ((print ([bare "#", bare s.name] :: [bare "#"] :: (bare "DEF" :: bare s.name :: settings s) ::
        ls)).toList ++ ys)) := by
  have hhash : "#".toList = ['#'] := rfl
  have hword : "DEF".toList = ['D', 'E', 'F'] := rfl
  have htext : (Line.print [bare "#"]).toList ++ '\n' ::
      ((print ([bare "#", bare s.name] :: [bare "#"] :: (bare "DEF" :: bare s.name :: settings s) ::
        ls)).toList ++ ys) =
      ['#', '\n', '#', ' '] ++ ((s.name.toList ++ ['\n', '#', '\n', 'D', 'E', 'F']) ++
        ' ' :: ((Line.print (bare s.name :: settings s)).toList ++ '\n' :: ((print ls).toList ++ ys))) := by
    simp only [toList_print_cons, toList_print_line_cons, print_line_singleton, Word.print, hhash,
      hword, List.append_assoc, List.cons_append, List.nil_append]
  rw [htext, opens_iff]
  rintro (h | h)
  · have hp := (List.prefix_append_right_inj _).mp h
    have heq := eq_of_prefix_append_cons (by simp [hblank]) (by simp [hname]) hp
    exact hn (String.toList_inj.mp (List.append_cancel_right heq))
  · simp at h

/-- Nor does the line that defines it. -/
theorem not_opens_definition (hn : n ≠ s.name) (hname : ' ' ∉ s.name.toList)
    (hblank : ' ' ∉ n.toList) (ys : List Char) :
    ¬ (ofName .legacy n).Opens
      ((Line.print (bare "DEF" :: bare s.name :: settings s)).toList ++ '\n' :: ys) := by
  obtain ⟨rest, hsettings⟩ : ∃ rest, settings s = bare s.designator :: rest := ⟨_, rfl⟩
  have hword : "DEF".toList = ['D', 'E', 'F'] := rfl
  have htext : (Line.print (bare "DEF" :: bare s.name :: settings s)).toList ++ '\n' :: ys =
      ['D', 'E', 'F', ' '] ++ (s.name.toList ++ ' ' :: ((settings s).print.toList ++ '\n' :: ys)) := by
    rw [hsettings]
    simp only [toList_print_line_cons, Word.print, hword, List.append_assoc, List.cons_append,
      List.nil_append]
  rw [htext, opens_iff]
  rintro (h | h)
  · simp at h
  · have hp := (List.prefix_append_right_inj _).mp h
    exact hn (String.toList_inj.mp (eq_of_prefix_append_cons hblank hname hp))

/-- No later line of the body begins like an opening. -/
theorem not_opens_of_mem_tail {l : Line} (hl : l ∈ (bodyLines s).tail) (ys : List Char) :
    ¬ (ofName .legacy n).Opens (l.print.toList ++ '\n' :: ys) := by
  have hmark : ∀ k ∈ lineMarks, '\n' ∉ k → ¬ k <+: l.print.toList ++ '\n' :: ys := by
    intro k hk hkl
    rw [prefix_append_cons hkl]
    exact not_prefix_of_mem_tail hk hl
  have hhash := hmark ['#'] (by decide) (by decide)
  have hdef := hmark ['D', 'E'] (by decide) (by decide)
  rw [opens_iff]
  rintro (h | h)
  · exact hhash ((List.prefix_append ['#'] _).trans h)
  · exact hdef ((List.prefix_append ['D', 'E'] _).trans h)

/-- The search for another name passes an entry whose texts are not broken into lines. -/
theorem passes_symbolEntry (hs : s.LineFree) (hname : ' ' ∉ s.name.toList) (hn : n ≠ s.name)
    (hblank : ' ' ∉ n.toList) (ys : List Char) :
    Passes (ofName .legacy n).Opens true (symbolEntry s).toList ys := by
  have hline : '\n' ∉ s.name.toList := hs s.name List.mem_cons_self
  have hbroken : '\n' ∉ (settings s).print.toList := lineFeed_not_mem hs List.mem_cons_self
  obtain ⟨rest, hsettings⟩ : ∃ rest, settings s = bare s.designator :: rest := ⟨_, rfl⟩
  rw [symbolEntry, symbol_eq]
  refine passes_print_cons (by decide) (not_opens_banner hn hname hblank _ ys) (passes_print_cons ?_ ?_
    (passes_print_cons (by decide) ?_ (passes_print ?_)))
  · rw [toList_print_line_cons, print_line_singleton]
    simp [Word.print, hline]
  · rw [toList_print_line_cons, opens_iff]
    simp [Word.print]
  · rw [opens_iff]
    simp [toList_print_cons, hsettings, toList_print_line_cons, print_line_singleton, Word.print]
  · intro l hl
    simp only [List.mem_cons, List.mem_append, List.not_mem_nil, or_false] at hl
    rcases hl with rfl | hl | rfl
    · refine ⟨?_, not_opens_definition hn hname hblank⟩
      rw [hsettings] at hbroken ⊢
      simp [toList_print_line_cons, Word.print, hline, hbroken]
    · exact ⟨lineFeed_not_mem hs (List.mem_of_mem_tail hl), not_opens_of_mem_tail hl⟩
    · refine ⟨by decide, fun zs => ?_⟩
      rw [opens_iff, print_line_singleton]
      simp [Word.print]

end

/-- **A symbol prints as its entry** if no text of it is broken into lines, and no blank stands in its
name. -/
theorem isEntry_symbolEntry (hs : s.LineFree) (hname : ' ' ∉ s.name.toList) :
    IsEntry .legacy s.name (symbolEntry s).toList := by
  have hfree : ¬ ∃ x ∈ s.designator :: s.bodyTexts, '\n' :: ending <:+: x.toList := by
    rintro ⟨x, hx, hin⟩
    exact hs x (List.mem_cons_of_mem _ hx) (hin.subset (by decide))
  refine ⟨fun ys => ?_, fun n hn hblank ys => passes_symbolEntry hs hname hn hblank ys,
    beginsLine_print _ _ _⟩
  obtain ⟨m, a, hm, hwhole⟩ := here?_symbolEntry s ys
  rw [hm, hwhole.mpr hfree]

/-! ## Header and footer -/

theorem passes_libraryHeader (n : String) (ys : List Char) :
    Passes (ofName .legacy n).Opens true libraryHeader.toList ys := by
  obtain ⟨version, hversion⟩ : ∃ cs, (bareWords ["EESchema-LIBRARY", "Version", "2.4"]).print.toList =
      'E' :: cs := ⟨_, rfl⟩
  obtain ⟨encoding, hencoding⟩ : ∃ cs, (bareWords ["#encoding", "utf-8"]).print.toList =
      '#' :: 'e' :: cs := ⟨_, rfl⟩
  refine passes_print_cons (by decide) ?_ (passes_print_cons (by decide) ?_ Passes.nil)
  · rw [opens_iff, hversion]
    simp
  · rw [opens_iff, hencoding]
    simp

theorem noLine_libraryFooter (n : String) :
    NoLine (ofName .legacy n).Opens true libraryFooter.toList := by
  obtain ⟨mark, hmark⟩ : ∃ cs, (bareWords ["#End", "Library"]).print.toList = '#' :: 'E' :: cs :=
    ⟨_, rfl⟩
  have hlines : Passes (ofName .legacy n).Opens true libraryFooter.toList [] := by
    refine passes_print_cons (by decide) ?_ (passes_print_cons (by decide) ?_ Passes.nil)
    · rw [opens_iff, toList_print_cons, hmark, print_line_singleton]
      simp [Word.print]
    · rw [opens_iff, hmark]
      simp
  have hend : NoLine (ofName .legacy n).Opens (beginsLine true libraryFooter.toList) [] := by
    rw [noLine_nil, opens_iff]
    simp
  simpa using hlines.noLine hend

end EdaParts.Legacy
