import EdaParts.Proofs.Json.Numbers

/-!
# Documents skipped as they are written

Every document of the grammar is skipped, however deep it is nested and whatever its strings and numbers stand for.

* `Skips`, `Enters`, `Leaves` : from the front of a value, of the inside of a bracket, or of what follows a value in
  it, the skipper gets to the text behind, in rounds bounded by the length of the text;
* `Document.skips` : every document is skipped, by recursion over documents; `skipValue_text` : so it is with enough
  rounds.
-/

namespace EdaParts.Json

variable {b : Bracket} {rest : List Char}

/-! ## Blanks -/

theorem skipSpaces_blanks (blanks : Blanks) (cs : List Char) : skipSpaces (blanks.1 ++ cs) = skipSpaces cs :=
  List.dropWhile_append_of_pos blanks.2

theorem skipSpaces_cons {c : Char} (h : isSpace c = false) (cs : List Char) : skipSpaces (c :: cs) = c :: cs := by
  rw [skipSpaces, List.dropWhile_cons_of_neg (Bool.eq_false_iff.mp h)]

/-- A document begins with none of the characters between documents. -/
theorem Document.exists_cons_text (d : Document) :
    ∃ c cs, d.text = c :: cs ∧ isSpace c = false ∧ c ∉ [',', ']', '\x7d'] := by
  cases d with
  | number n =>
    obtain ⟨c, cs, htext, hc⟩ := n.exists_cons_text
    have hfree : [' ', '\t', '\n', '\r', ',', ']', '\x7d'].all (fun c => !startsNumber c) = true := by decide
    have hmem : c ∉ [' ', '\t', '\n', '\r', ',', ']', '\x7d'] := fun h => by
      have hnot := List.all_eq_true.mp hfree c h
      rw [hc] at hnot
      cases hnot
    simp only [List.mem_cons, List.not_mem_nil, or_false, not_or] at hmem
    exact ⟨c, cs, htext, by simp [isSpace, hmem], by simp [hmem]⟩
  | bool b => cases b <;> exact ⟨_, _, rfl, by decide, by decide⟩
  | _ => exact ⟨_, _, rfl, by decide, by decide⟩

theorem Document.length_text_pos (d : Document) : 0 < d.text.length := by
  obtain ⟨c, cs, htext, -, -⟩ := d.exists_cons_text
  rw [htext]
  exact Nat.zero_lt_succ _

theorem skipSpaces_text (blanks : Blanks) (d : Document) (cs : List Char) :
    skipSpaces (blanks.1 ++ (d.text ++ cs)) = d.text ++ cs := by
  obtain ⟨c, ds, htext, hc, -⟩ := d.exists_cons_text
  rw [skipSpaces_blanks, htext, List.cons_append, skipSpaces_cons hc]

theorem afterColon_blanks (blanks : Blanks) (cs : List Char) : afterColon (blanks.1 ++ ':' :: cs) = .ok cs := by
  rw [afterColon, skipSpaces_blanks, skipSpaces_cons rfl]
  rfl

theorem quotedText_append (marks : List Mark) (cs : List Char) :
    quotedText marks ++ cs = '"' :: (spell marks ++ '"' :: cs) := by
  rw [quotedText, List.cons_append, List.append_assoc]
  rfl

/-! ## What the skipper gets past -/

/-- The text of a value, after blanks. -/
def Skips (text : List Char) : Prop :=
  ∃ used ≤ 2 * text.length, ∀ rounds around (blanks : Blanks) rest, Ends rest →
    skipFrom (used + rounds) around (blanks.1 ++ (text ++ rest)) = leaveFrom rounds around rest

/-- What stands between an opening bracket and the closing one. -/
def Enters (b : Bracket) (text : List Char) : Prop :=
  ∃ used ≤ 2 * text.length + 2, ∀ rounds around rest,
    enterFrom (used + rounds) b around (text ++ b.closing :: rest) = leaveFrom rounds around rest

/-- What stands between a value in brackets and the closing one. -/
def Leaves (b : Bracket) (text : List Char) : Prop :=
  ∃ used ≤ 2 * text.length + 1, ∀ rounds around rest,
    leaveFrom (used + rounds) (b :: around) (text ++ b.closing :: rest) = leaveFrom rounds around rest

theorem Bracket.closing_isSpace (b : Bracket) : isSpace b.closing = false := by
  cases b <;> rfl

theorem Bracket.closing_ne (b : Bracket) : b.closing ≠ ',' := by
  cases b <;> decide

theorem Bracket.ends_closing (b : Bracket) (rest : List Char) : Ends (b.closing :: rest) := by
  cases b
  · exact ends_cons (.inr (.inr (.inl rfl))) rest
  · exact ends_cons (.inr (.inr (.inr rfl))) rest

theorem enters_blanks (b : Bracket) (blanks : Blanks) : Enters b blanks.1 := by
  refine ⟨1, by omega, fun rounds around rest => ?_⟩
  rw [Nat.add_comm, enterFrom, skipSpaces_blanks, skipSpaces_cons b.closing_isSpace]
  exact if_pos rfl

theorem leaves_blanks (b : Bracket) (blanks : Blanks) : Leaves b blanks.1 := by
  refine ⟨1, by omega, fun rounds around rest => ?_⟩
  rw [Nat.add_comm, leaveFrom, skipSpaces_blanks, skipSpaces_cons b.closing_isSpace]
  exact (if_neg b.closing_ne).trans (if_pos rfl)

/-- Blanks before what follows a value do not count. -/
theorem leaveFrom_blanks (rounds : Nat) (around : List Bracket) (blanks : Blanks) (rest : List Char) :
    leaveFrom rounds (b :: around) (blanks.1 ++ rest) = leaveFrom rounds (b :: around) rest := by
  cases rounds with
  | zero => rfl
  | succ rounds => rw [leaveFrom, leaveFrom, skipSpaces_blanks]

/-! ## Items and members -/

/-- From the front of an item or a member, with or without blanks before it, the skipper gets to its document. -/
structure LeadsTo (b : Bracket) (lead : List Char) (d : Document) : Prop where
  first : ∀ rest, ∃ c cs, skipSpaces (lead ++ (d.text ++ rest)) = c :: cs ∧ c ≠ b.closing ∧
    ∃ blanks : Blanks, skipToValue b (c :: cs) = .ok (blanks.1 ++ (d.text ++ rest))
  later : ∀ rest, ∃ blanks : Blanks, skipToValue b (lead ++ (d.text ++ rest)) = .ok (blanks.1 ++ (d.text ++ rest))

theorem leadsTo_item (before : Blanks) (d : Document) : LeadsTo .array before.1 d where
  first rest := by
    obtain ⟨c, cs, htext, -, hc⟩ := d.exists_cons_text
    refine ⟨c, cs ++ rest, by rw [skipSpaces_text, htext]; rfl, ?_, .none, by rw [htext]; rfl⟩
    exact fun h => hc (h ▸ by decide)
  later rest := ⟨before, rfl⟩

theorem skipName_quotedText (name : List Mark) (left : Blanks) (cs : List Char) :
    skipName (quotedText name ++ (left.1 ++ ':' :: cs)) = .ok cs := by
  rw [skipName, quotedText_append, skipSpaces_cons rfl]
  show (do afterColon (← skipQuoted (spell name ++ '"' :: (left.1 ++ ':' :: cs)))) = _
  rw [skipQuoted_spell]
  exact afterColon_blanks left cs

/-- What stands before the document of a member. -/
def memberLead (before : Blanks) (name : List Mark) (left right : Blanks) : List Char :=
  before.1 ++ (quotedText name ++ (left.1 ++ ':' :: right.1))

theorem memberLead_append (before : Blanks) (name : List Mark) (left right : Blanks) (cs : List Char) :
    memberLead before name left right ++ cs =
      before.1 ++ (quotedText name ++ (left.1 ++ ':' :: (right.1 ++ cs))) := by
  simp only [memberLead, List.append_assoc, List.cons_append]

theorem leadsTo_member (before : Blanks) (name : List Mark) (left right : Blanks) (d : Document) :
    LeadsTo .object (memberLead before name left right) d where
  first rest := by
    have hskip := skipName_quotedText name left (right.1 ++ (d.text ++ rest))
    rw [quotedText_append] at hskip
    refine ⟨'"', _, ?_, by decide, right, hskip⟩
    rw [memberLead_append, skipSpaces_blanks, quotedText_append, skipSpaces_cons rfl]
  later rest := by
    refine ⟨right, ?_⟩
    rw [memberLead_append]
    show skipName _ = _
    have hblanks : skipName (before.1 ++ (quotedText name ++ (left.1 ++ ':' :: (right.1 ++ (d.text ++ rest))))) =
        skipName (quotedText name ++ (left.1 ++ ':' :: (right.1 ++ (d.text ++ rest)))) := by
      rw [skipName, skipName, skipSpaces_blanks]
    rw [hblanks, skipName_quotedText]

/-- **One item or member more**: its document is skipped, and the rest is left, whether it is the first in its
bracket or follows a comma. -/
theorem Skips.entry {lead more : List Char} {d : Document} (hd : Skips d.text) (hlead : LeadsTo b lead d)
    (after : Blanks) (hmore : Leaves b more) (hends : ∀ rest, Ends (more ++ b.closing :: rest)) :
    Enters b (lead ++ (d.text ++ (after.1 ++ more))) ∧ Leaves b (',' :: (lead ++ (d.text ++ (after.1 ++ more)))) := by
  obtain ⟨used, hused, hskip⟩ := hd
  obtain ⟨left, hleft, hleave⟩ := hmore
  have hassoc (rest : List Char) : lead ++ (d.text ++ (after.1 ++ more)) ++ rest =
      lead ++ (d.text ++ (after.1 ++ (more ++ rest))) := by
    simp only [List.append_assoc]
  have hrest (rounds : Nat) (around : List Bracket) (blanks : Blanks) (rest : List Char) :
      skipFrom (used + (left + rounds)) (b :: around)
        (blanks.1 ++ (d.text ++ (after.1 ++ (more ++ b.closing :: rest)))) = leaveFrom rounds around rest := by
    rw [hskip _ _ _ _ (ends_blanks_append after (hends rest)), leaveFrom_blanks, hleave]
  constructor
  · refine ⟨used + left + 1, ?_, fun rounds around rest => ?_⟩
    · simp only [List.length_append]
      omega
    · obtain ⟨c, cs, hcs, hc, blanks, hto⟩ := hlead.first (after.1 ++ (more ++ b.closing :: rest))
      rw [show used + left + 1 + rounds = used + (left + rounds) + 1 by omega, hassoc, enterFrom, hcs]
      show (if c = b.closing then _ else do skipFrom _ (b :: around) (← skipToValue b (c :: cs))) = _
      rw [if_neg hc, hto]
      exact hrest rounds around blanks rest
  · refine ⟨used + left + 1, ?_, fun rounds around rest => ?_⟩
    · simp only [List.length_append, List.length_cons]
      omega
    · obtain ⟨blanks, hto⟩ := hlead.later (after.1 ++ (more ++ b.closing :: rest))
      rw [show used + left + 1 + rounds = used + (left + rounds) + 1 by omega, List.cons_append, hassoc, leaveFrom,
        skipSpaces_cons rfl]
      show (if ',' = ',' then do skipFrom _ (b :: around) (← skipToValue b _) else _) = _
      rw [if_pos rfl, hto]
      exact hrest rounds around blanks rest

/-! ## Documents -/

theorem Items.text_nil (blanks : Blanks) (first : Bool) : (Items.nil blanks).text first = blanks.1 := rfl

theorem Members.text_nil (blanks : Blanks) (first : Bool) : (Members.nil blanks).text first = blanks.1 := rfl

theorem Items.text_cons (before : Blanks) (d : Document) (after : Blanks) (more : Items) (first : Bool) :
    (Items.cons before d after more).text first =
      divider first ++ (before.1 ++ (d.text ++ (after.1 ++ more.text false))) := rfl

theorem Members.text_cons (before : Blanks) (name : List Mark) (left right : Blanks) (d : Document) (after : Blanks)
    (more : Members) (first : Bool) : (Members.cons before name left right d after more).text first =
      divider first ++ (memberLead before name left right ++ (d.text ++ (after.1 ++ more.text false))) := by
  rw [memberLead_append]
  rfl

/-- After an item comes a comma or the closing bracket. -/
theorem Items.ends_text (items : Items) (rest : List Char) :
    Ends (items.text false ++ Bracket.array.closing :: rest) := by
  cases items with
  | nil blanks => exact ends_blanks_append blanks (Bracket.ends_closing _ _)
  | cons => exact ends_cons (.inr (.inl rfl)) _

theorem Members.ends_text (members : Members) (rest : List Char) :
    Ends (members.text false ++ Bracket.object.closing :: rest) := by
  cases members with
  | nil blanks => exact ends_blanks_append blanks (Bracket.ends_closing _ _)
  | cons => exact ends_cons (.inr (.inl rfl)) _

/-- A document without brackets is skipped in one round. -/
theorem Skips.of_one {text : List Char} (hne : text ≠ [])
    (h : ∀ rounds around (blanks : Blanks) rest, Ends rest →
      skipFrom (rounds + 1) around (blanks.1 ++ (text ++ rest)) = leaveFrom rounds around rest) : Skips text := by
  have hpos : 0 < text.length := List.length_pos_iff.mpr hne
  refine ⟨1, by omega, fun rounds around blanks rest hrest => ?_⟩
  rw [Nat.add_comm]
  exact h rounds around blanks rest hrest

theorem NumberText.skips (n : NumberText) : Skips n.text := by
  obtain ⟨c, cs, htext, hc⟩ := n.exists_cons_text
  refine .of_one (htext ▸ List.cons_ne_nil _ _) fun rounds around blanks rest hrest => ?_
  have hcs : skipSpaces (blanks.1 ++ (n.text ++ rest)) = c :: (cs ++ rest) := by
    rw [show n.text = (Document.number n).text from rfl, skipSpaces_text]
    exact congrArg (· ++ rest) htext
  have hskip : skipNumber (c :: (cs ++ rest)) = .ok rest := by
    rw [← List.cons_append, ← htext]
    exact skipNumber_text n hrest
  rw [skipFrom, hcs]
  split
  · next h => cases h
  -- No letter, quote or bracket begins a number.
  iterate 6 next h => exact absurd ((List.cons.inj h).1 ▸ hc) (by decide)
  next h =>
    obtain ⟨rfl, rfl⟩ := List.cons.inj h
    rw [if_pos hc, hskip]
    rfl

mutual

/-- **Every document is skipped**, in rounds bounded by its length. -/
theorem Document.skips (d : Document) : Skips d.text := by
  cases d with
  | null =>
    refine .of_one (List.cons_ne_nil _ _) fun rounds around blanks rest _ => ?_
    rw [skipFrom, skipSpaces_text]
    rfl
  | bool b =>
    cases b <;>
    · refine .of_one (List.cons_ne_nil _ _) fun rounds around blanks rest _ => ?_
      rw [skipFrom, skipSpaces_text]
      rfl
  | number n => exact n.skips
  | string marks =>
    refine .of_one (List.cons_ne_nil _ _) fun rounds around blanks rest _ => ?_
    rw [skipFrom, skipSpaces_text]
    show (do leaveFrom rounds around (← skipQuoted (spell marks ++ ['"'] ++ rest))) = _
    rw [List.append_assoc]
    exact congrArg (· >>= _) (skipQuoted_spell marks rest)
  | array items =>
    obtain ⟨used, hused, henter⟩ := items.skips.1
    refine ⟨used + 1, by simp only [Document.text, List.length_cons, List.length_append, List.length_nil]; omega, ?_⟩
    intro rounds around blanks rest _
    rw [Nat.add_right_comm, skipFrom, skipSpaces_text]
    show enterFrom (used + rounds) .array around (items.text true ++ [']'] ++ rest) = _
    rw [List.append_assoc]
    exact henter rounds around rest
  | object members =>
    obtain ⟨used, hused, henter⟩ := members.skips.1
    refine ⟨used + 1, by simp only [Document.text, List.length_cons, List.length_append, List.length_nil]; omega, ?_⟩
    intro rounds around blanks rest _
    rw [Nat.add_right_comm, skipFrom, skipSpaces_text]
    show enterFrom (used + rounds) .object around (members.text true ++ ['\x7d'] ++ rest) = _
    rw [List.append_assoc]
    exact henter rounds around rest

theorem Items.skips (items : Items) : Enters .array (items.text true) ∧ Leaves .array (items.text false) := by
  cases items with
  | nil blanks => exact ⟨enters_blanks _ blanks, leaves_blanks _ blanks⟩
  | cons before d after more =>
    rw [Items.text_cons, Items.text_cons]
    exact d.skips.entry (leadsTo_item before d) after more.skips.2 more.ends_text

theorem Members.skips (members : Members) :
    Enters .object (members.text true) ∧ Leaves .object (members.text false) := by
  cases members with
  | nil blanks => exact ⟨enters_blanks _ blanks, leaves_blanks _ blanks⟩
  | cons before name left right d after more =>
    rw [Members.text_cons, Members.text_cons]
    exact d.skips.entry (leadsTo_member before name left right d) after more.skips.2 more.ends_text

end

/-- Twice its length is enough rounds to skip a document. -/
theorem skipValue_text (d : Document) {rounds : Nat} (hrounds : 2 * d.text.length ≤ rounds) (blanks : Blanks)
    (h : Ends rest) : skipValue rounds (blanks.1 ++ (d.text ++ rest)) = .ok rest := by
  obtain ⟨used, hused, hskip⟩ := d.skips
  obtain ⟨left, rfl⟩ := Nat.exists_eq_add_of_le (Nat.le_trans hused hrounds)
  rw [skipValue, hskip left [] blanks rest h]
  cases left <;> rfl

end EdaParts.Json
