import EdaParts.Proofs.Decimal.Numeral
import EdaParts.Proofs.Legacy.Lines
import EdaParts.Proofs.Text.Pieces

/-!
# Lines read back

The legacy formats are read by position: a text is cut at the ends of its lines, a line at each of its
blanks, and a line with quoted words at each of its quotes first.

* `lines?`, `lines?_print` : the lines of a text; `find?_lines` : the first of them that fits;
* `words`, `words_print` : the words of a line without quotes;
* `quoteParts`, `quoteParts_print` : what stands between the quotes of a line, and around them.
-/

namespace EdaParts.Legacy

open Word

/-! ## Cutting texts -/

/-- The lines of a text, each of which has an end. -/
def lines? (text : String) : Option (List String) :=
  let parts := Text.pieces '\n' text.toList
  if parts.getLast? = some [] then some (parts.dropLast.map String.ofList) else none

/-- The words of a line, one more than it has blanks. -/
def words (line : String) : List String :=
  (Text.pieces ' ' line.toList).map String.ofList

/-- The parts of a line between quotes, and those around them. -/
def quoteParts (line : String) : List String :=
  (Text.pieces '"' line.toList).map String.ofList

section
variable {l pre post : Line} {ls : List Line}

/-- Lines that are not broken are cut off whatever follows them. -/
theorem pieces_print_append (h : ∀ l ∈ ls, '\n' ∉ l.print.toList) (cs : List Char) :
    Text.pieces '\n' ((print ls).toList ++ cs) =
      ls.map (fun l => l.print.toList) ++ Text.pieces '\n' cs := by
  induction ls with
  | nil => rfl
  | cons l ls ih =>
    obtain ⟨hl, hls⟩ := List.forall_mem_cons.mp h
    rw [toList_print_cons, List.append_assoc, List.cons_append, Text.pieces_append_cons hl, ih hls,
      List.map_cons, List.cons_append]

theorem pieces_print (h : ∀ l ∈ ls, '\n' ∉ l.print.toList) :
    Text.pieces '\n' (print ls).toList = ls.map (fun l => l.print.toList) ++ [[]] := by
  have hpieces := pieces_print_append h []
  rwa [List.append_nil] at hpieces

/-- The first line that fits is found, if no line up to it is broken. -/
theorem find?_lines (fits : String → Bool) (post : List Line)
    (hlines : ∀ k ∈ ls, '\n' ∉ k.print.toList) (hline : '\n' ∉ l.print.toList)
    (hothers : ∀ k ∈ ls, fits k.print = false) (hfits : fits l.print = true) :
    ((Text.pieces '\n' (print (ls ++ l :: post)).toList).map String.ofList).find? fits = some l.print := by
  have hnone : ((ls.map fun k => k.print.toList).map String.ofList).find? fits = none := by
    rw [List.find?_eq_none]
    intro line hmem
    rw [List.map_map] at hmem
    obtain ⟨k, hk, rfl⟩ := List.mem_map.mp hmem
    simp [hothers k hk]
  rw [toList_print_append, toList_print_cons, pieces_print_append hlines, Text.pieces_append_cons hline,
    List.map_append, List.map_cons, String.ofList_toList, List.find?_append, hnone, List.find?_cons, hfits]
  rfl

/-- **Printed lines** are found again. -/
theorem lines?_print (h : ∀ l ∈ ls, '\n' ∉ l.print.toList) :
    lines? (print ls) = some (ls.map Line.print) := by
  have hmap : (ls.map fun l => l.print.toList).map String.ofList = ls.map Line.print := by simp
  unfold lines?
  rw [pieces_print h]
  simp only [List.getLast?_concat, List.dropLast_concat, hmap, if_true]

/-! ## Words -/

theorem toList_print_line (hne : l ≠ []) :
    l.print.toList = Text.join ' ' (l.map fun w => w.print.toList) := by
  induction l with
  | nil => exact absurd rfl hne
  | cons w l ih =>
    cases l with
    | nil => rw [print_line_singleton]; rfl
    | cons v l =>
      rw [toList_print_line_cons, ih (List.cons_ne_nil v l)]
      rfl

/-- **Words without blanks** are found again. -/
theorem words_print (hne : l ≠ []) (h : ∀ w ∈ l, ' ' ∉ w.print.toList) :
    words l.print = l.map Word.print := by
  unfold words
  rw [toList_print_line hne, Text.pieces_join (by simpa using hne)]
  · simp
  · intro cs hcs
    obtain ⟨w, hw, rfl⟩ := List.mem_map.mp hcs
    exact h w hw

/-- The first word is found whatever follows it. -/
theorem head?_words_print {w : Word} (hw : ' ' ∉ w.print.toList) (l : Line) :
    (words (Line.print (w :: l))).head? = some w.print := by
  cases l with
  | nil =>
    rw [print_line_singleton, words, Text.pieces_of_not_mem hw]
    simp
  | cons v l =>
    rw [words, toList_print_line_cons, Text.pieces_append_cons hw]
    simp

/-! ## Quotes -/

theorem toList_print_line_append (pre : Line) (w : Word) (post : Line) :
    (Line.print (pre ++ w :: post)).toList =
      (Line.print (pre ++ [bare ""])).toList ++
        (w.print.toList ++ (Line.print (bare "" :: post)).toList) := by
  have hempty : (bare "").print.toList = [] := rfl
  induction pre with
  | nil =>
    rw [List.nil_append, List.nil_append, print_line_singleton, hempty, List.nil_append]
    cases post with
    | nil => rw [print_line_singleton, print_line_singleton, hempty, List.append_nil]
    | cons v post => rw [toList_print_line_cons, toList_print_line_cons, hempty, List.nil_append]
  | cons u pre ih =>
    obtain ⟨v, vs, hvs⟩ := List.exists_cons_of_ne_nil (List.append_ne_nil_of_right_ne_nil pre
      (List.cons_ne_nil w post))
    obtain ⟨v', vs', hvs'⟩ := List.exists_cons_of_ne_nil (List.append_ne_nil_of_right_ne_nil pre
      (List.cons_ne_nil (bare "") []))
    rw [List.cons_append, List.cons_append, hvs, hvs', toList_print_line_cons, toList_print_line_cons, ← hvs,
      ← hvs', ih]
    simp

theorem not_mem_print_line {c : Char} (hc : c ≠ ' ') (h : ∀ w ∈ l, c ∉ w.print.toList) :
    c ∉ l.print.toList := by
  induction l with
  | nil => simp [Line.print]
  | cons w l ih =>
    obtain ⟨hw, hl⟩ := List.forall_mem_cons.mp h
    cases l with
    | nil => rwa [print_line_singleton]
    | cons v l =>
      rw [toList_print_line_cons, List.mem_append, List.mem_cons]
      rintro (hin | hin | hin)
      · exact hw hin
      · exact hc hin
      · exact ih hl hin

theorem not_mem_unquoted (s : String) : '"' ∉ (unquoted s).toList := by
  unfold unquoted Text.substitute
  rw [String.toList_ofList, List.mem_flatMap]
  rintro ⟨c, -, hc⟩
  split at hc
  · simp at hc
  · next hne => exact hne (List.mem_singleton.mp hc).symm

theorem quoteParts_of_bare (h : ∀ w ∈ l, '"' ∉ w.print.toList) : quoteParts l.print = [l.print] := by
  unfold quoteParts
  rw [Text.pieces_of_not_mem (not_mem_print_line (by decide) h)]
  simp

/-- **What is quoted** is found again between its quotes. -/
theorem quoteParts_print (hpre : ∀ w ∈ pre, '"' ∉ w.print.toList) (s : String) (post : Line) :
    quoteParts (Line.print (pre ++ quoted s :: post)) =
      Line.print (pre ++ [bare ""]) :: unquoted s :: quoteParts (Line.print (bare "" :: post)) := by
  have hfront : '"' ∉ (Line.print (pre ++ [bare ""])).toList := by
    apply not_mem_print_line (by decide)
    intro w hw
    rcases List.mem_append.mp hw with hw | hw
    · exact hpre w hw
    · rw [List.mem_singleton.mp hw]
      decide
  have hquoted : (quoted s).print.toList ++ (Line.print (bare "" :: post)).toList =
      '"' :: ((unquoted s).toList ++ '"' :: (Line.print (bare "" :: post)).toList) := by
    unfold Word.print
    simp
  unfold quoteParts
  rw [toList_print_line_append, hquoted, Text.pieces_append_cons hfront,
    Text.pieces_append_cons (not_mem_unquoted s)]
  simp

end

/-! ## Lines without a character -/

/-- No word of a line is printed with the character. -/
def Line.Lacks (c : Char) (l : Line) : Prop := ∀ w ∈ l, c ∉ w.print.toList

instance (c : Char) (l : Line) : Decidable (l.Lacks c) :=
  inferInstanceAs (Decidable (∀ w ∈ l, c ∉ w.print.toList))

section
variable {c : Char} {l k : Line}

@[simp] theorem lacks_nil (c : Char) : Line.Lacks c [] := by simp [Line.Lacks]

@[simp] theorem lacks_cons (w : Word) (l : Line) :
    Line.Lacks c (w :: l) ↔ c ∉ w.print.toList ∧ Line.Lacks c l := List.forall_mem_cons

@[simp] theorem lacks_append (l k : Line) :
    Line.Lacks c (l ++ k) ↔ Line.Lacks c l ∧ Line.Lacks c k := List.forall_mem_append

theorem not_mem_integer (hc : Decimal.isNumeralChar c = false) (n : Int) :
    c ∉ (integer n).print.toList :=
  Decimal.not_mem_of_isNumeral (Decimal.isNumeral_toString_int n) hc

theorem not_mem_number (hc : Decimal.isNumeralChar c = false) (x : Float) :
    c ∉ (number x).print.toList :=
  Decimal.not_mem_of_isNumeral (Decimal.isNumeral_numberText x) hc

end

end EdaParts.Legacy
