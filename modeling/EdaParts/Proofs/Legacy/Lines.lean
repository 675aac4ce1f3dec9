import EdaParts.Legacy.Line
import EdaParts.Proofs.Text.Occurrence

/-!
# Printed lines

What can be read off a list of printed lines again, as far as lines are looked for by what they
begin with.

* `toList_print_cons` : the characters of printed lines, a line at a time;
* `infix_print_word`, `infix_print_line` : a mark without blanks and quotes occurs in a line just if
  it does in the text of one of its words;
* `lineFeed_infix_print` : a mark after a line feed, in printed lines;
* `passes_print` : printed lines are passed if each of them is.
-/

namespace EdaParts.Legacy

open Text

variable {m : List Char} {l : Line} {ls : List Line}

theorem toList_print_cons (l : Line) (ls : List Line) :
    (print (l :: ls)).toList = l.print.toList ++ '\n' :: (print ls).toList := by
  unfold print
  rw [List.map_cons, String.join_cons, String.toList_append, String.toList_append, List.append_assoc]
  rfl

theorem toList_print_append (ls ks : List Line) :
    (print (ls ++ ks)).toList = (print ls).toList ++ (print ks).toList := by
  induction ls with
  | nil => rfl
  | cons l ls ih =>
    rw [List.cons_append, toList_print_cons, toList_print_cons, ih, List.append_assoc,
      List.cons_append]

theorem toList_print_line_cons (w v : Word) (l : Line) :
    (Line.print (w :: v :: l)).toList = w.print.toList ++ ' ' :: (Line.print (v :: l)).toList := by
  unfold Line.print
  rw [List.map_cons, List.map_cons, String.intercalate_cons_cons, String.toList_append,
    String.toList_append, List.append_assoc]
  rfl

theorem print_line_singleton (w : Word) : Line.print [w] = w.print :=
  String.intercalate_singleton

theorem beginsLine_print (fresh : Bool) (l : Line) (ls : List Line) :
    beginsLine fresh (print (l :: ls)).toList = true := by
  induction ls generalizing fresh l with
  | nil =>
    rw [toList_print_cons, beginsLine_append]
    rfl
  | cons k ls ih =>
    rw [toList_print_cons, beginsLine_append, beginsLine_cons]
    exact ih _ k

/-! ## Marks in words and lines -/

/-- The text of a word, before its quotes are replaced. -/
def Word.text : Word → String
  | bare text => text
  | quoted text => text

/-- What is looked for in lines: something without blanks, tildes and either kind of quotes. -/
structure IsMark (m : List Char) : Prop where
  ne_nil : m ≠ []
  noBlank : ' ' ∉ m
  noTilde : '~' ∉ m
  noQuote : '"' ∉ m
  noApostrophe : '\'' ∉ m

theorem infix_print_word (hm : IsMark m) (w : Word) :
    m <:+: w.print.toList ↔ m <:+: w.text.toList := by
  cases w with
  | bare text => rfl
  | quoted text =>
    have hprint : (Word.quoted text).print.toList =
        [] ++ '"' :: ((Word.unquoted text).toList ++ '"' :: []) := by
      unfold Word.print
      rw [String.toList_append, String.toList_append]
      simp
    rw [hprint, infix_append_cons hm.noQuote, infix_append_cons hm.noQuote, Word.unquoted,
      infix_substitute hm.noQuote hm.noApostrophe]
    simp [hm.ne_nil, Word.text]

theorem infix_print_line (hm : IsMark m) (l : Line) :
    m <:+: l.print.toList ↔ ∃ w ∈ l, m <:+: w.text.toList := by
  induction l with
  | nil => simp [Line.print, hm.ne_nil]
  | cons w l ih =>
    cases l with
    | nil => simp [print_line_singleton, infix_print_word hm]
    | cons v l =>
      rw [toList_print_line_cons, infix_append_cons hm.noBlank, infix_print_word hm, ih]
      simp only [List.mem_cons, exists_eq_or_imp]

/-- The characters before the first blank are those of the first word. -/
theorem prefix_print_line (hm : ' ' ∉ m) (text : String) (l : Line) :
    m <+: (Line.print (.bare text :: l)).toList ↔ m <+: text.toList := by
  cases l with
  | nil => rw [print_line_singleton, Word.print]
  | cons v l => rw [toList_print_line_cons, prefix_append_cons hm, Word.print]

/-- Free text is changed at its blanks only. -/
theorem infix_free (hm : IsMark m) (s : String) :
    m <:+: (Word.free s).text.toList ↔ m <:+: s.toList := by
  have hempty : m <:+: "~".toList ↔ m <:+: "".toList := by
    have htilde : "~".toList = [] ++ '~' :: [] := rfl
    rw [htilde, infix_append_cons hm.noTilde]
    simp [hm.ne_nil]
  rw [Word.free, Word.text]
  split
  · next h =>
    have hs : s = "" := by simpa using h
    rw [hs, hempty]
  · exact infix_substitute hm.noBlank hm.noTilde s

/-! ## Marks at the beginnings of lines -/

/-- A mark follows a line feed if it does so within a line, or if a line begins with it that is not
the first. -/
theorem lineFeed_infix_print (hm : '\n' ∉ m) (hne : m ≠ []) :
    '\n' :: m <:+: (print (l :: ls)).toList ↔
      (∃ k ∈ l :: ls, '\n' :: m <:+: k.print.toList) ∨ ∃ k ∈ ls, m <+: k.print.toList := by
  induction ls generalizing l with
  | nil =>
    rw [toList_print_cons, lineFeed_infix hm]
    simp [print, hne]
  | cons k ls ih =>
    rw [toList_print_cons, lineFeed_infix hm, ih, toList_print_cons, prefix_append_cons hm]
    simp only [List.mem_cons, exists_eq_or_imp, or_assoc, or_left_comm]

section
variable {P : List Char → Prop} {fresh : Bool} {ys : List Char}

theorem passes_print_cons (hline : '\n' ∉ l.print.toList)
    (hP : ¬ P (l.print.toList ++ '\n' :: ((print ls).toList ++ ys)))
    (hls : Passes P true (print ls).toList ys) : Passes P fresh (print (l :: ls)).toList ys := by
  have hcons : (print (l :: ls)).toList = (l.print.toList ++ ['\n']) ++ (print ls).toList := by
    rw [toList_print_cons, List.append_assoc, List.singleton_append]
  have hbegins : beginsLine fresh (l.print.toList ++ ['\n']) = true := by
    rw [beginsLine_append]
    rfl
  rw [hcons]
  exact Passes.append (Passes.line hline hP) (by rw [hbegins]; exact hls)

theorem passes_print
    (h : ∀ l ∈ ls, '\n' ∉ l.print.toList ∧ ∀ zs, ¬ P (l.print.toList ++ '\n' :: zs)) :
    Passes P fresh (print ls).toList ys := by
  induction ls generalizing fresh with
  | nil => exact Passes.nil
  | cons l ls ih =>
    obtain ⟨hline, hP⟩ := h l List.mem_cons_self
    exact passes_print_cons hline (hP _) (ih fun k hk => h k (List.mem_cons_of_mem _ hk))

end

end EdaParts.Legacy
