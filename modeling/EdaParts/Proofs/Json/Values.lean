import EdaParts.Proofs.Json.Skipping

/-!
# Documents read as they are written

* `Takes` : a reader takes a text, after blanks, as what it is to stand for, and refuses it if it stands for nothing;
* `Document.takes` : a document is read as its value, if it is nested only so deep; `takes_value` : so it is by the
  reader of values, and `takes_text`, `takes_optional` : so it is by readers that expect a string, or null;
* `Takes.run` : a whole text is read, with blanks on both sides.
-/

namespace EdaParts.Json

variable {α : Type} {rest : List Char}

/-- After blanks, the text is read as something, if it stands for something, and nothing behind it is touched. -/
def Takes (read : Reader α) (text : List Char) (x : Option α) : Prop :=
  ∀ (blanks : Blanks) (rest : List Char), Ends rest →
    (read (blanks.1 ++ (text ++ rest))).toOption = x.map fun a => (a, rest)

/-! ## Items and members -/

theorem afterClosing_blanks (b : Bracket) (blanks : Blanks) (rest : List Char) :
    afterClosing (blanks.1 ++ b.closing :: rest) = rest := by
  rw [afterClosing, skipSpaces_blanks, skipSpaces_cons b.closing_isSpace]
  rfl

theorem nextItem_nil (first : Bool) (blanks : Blanks) (rest : List Char) :
    nextItem first (blanks.1 ++ ']' :: rest) = .ok none := by
  rw [nextItem, skipSpaces_blanks, skipSpaces_cons rfl]
  rfl

theorem nextItem_first {c : Char} {cs ds : List Char} (h : skipSpaces cs = c :: ds) (hc : c ≠ ']') :
    nextItem true cs = .ok (some (c :: ds)) := by
  rw [nextItem, h]
  split
  · next hnil => cases hnil
  · next hclosing => exact absurd (List.cons.inj hclosing).1 hc
  · next hcons =>
    rw [if_pos rfl, ← hcons]

theorem nextItem_later {c : Char} {cs ds : List Char} (h : skipSpaces cs = c :: ds) (hc : c ≠ ']') :
    nextItem false (',' :: cs) = .ok (some (c :: ds)) := by
  rw [nextItem, skipSpaces_cons rfl]
  show (if false = true then _ else if ',' = ',' then _ else _) = _
  rw [if_neg Bool.false_ne_true, if_pos rfl, h]
  split
  · next hnil => cases hnil
  · next hclosing => exact absurd (List.cons.inj hclosing).1 hc
  · rfl

/-- The next item is found after its comma and blanks. -/
theorem nextItem_cons (first : Bool) (before : Blanks) (d : Document) (rest : List Char) :
    nextItem first (divider first ++ (before.1 ++ (d.text ++ rest))) = .ok (some (d.text ++ rest)) := by
  obtain ⟨c, cs, htext, -, hc⟩ := d.exists_cons_text
  have hclosing : c ≠ ']' := fun h => hc (by rw [h]; decide)
  have hbefore : skipSpaces (before.1 ++ (d.text ++ rest)) = c :: (cs ++ rest) := by
    rw [skipSpaces_text, htext]
    rfl
  rw [show d.text ++ rest = c :: (cs ++ rest) by rw [htext]; rfl] at hbefore ⊢
  cases first with
  | true => exact nextItem_first hbefore hclosing
  | false => exact nextItem_later hbefore hclosing

theorem nextName_nil (first : Bool) (blanks : Blanks) (rest : List Char) :
    nextName first (blanks.1 ++ '\x7d' :: rest) = .ok none := by
  rw [nextName, skipSpaces_blanks, skipSpaces_cons rfl]
  rfl

/-- The next name is found after its comma and blanks, and read as what it says. -/
theorem nextName_cons (first : Bool) (before : Blanks) (name : List Mark) (rest : List Char) :
    (nextName first (divider first ++ (before.1 ++ (quotedText name ++ rest)))).toOption =
      ((said? name).map String.ofList).map fun name => some (name, rest) := by
  have hbefore : skipSpaces (before.1 ++ (quotedText name ++ rest)) = '"' :: (spell name ++ '"' :: rest) := by
    rw [skipSpaces_blanks, quotedText_append, skipSpaces_cons rfl]
  have hquoted : (some <$> quoted (spell name ++ '"' :: rest)).toOption =
      ((said? name).map String.ofList).map fun name => some (name, rest) := by
    rw [toOption_map, quoted_spell, Option.map_map, Option.map_map]
    rfl
  cases first with
  | true =>
    rw [show divider true = [] from rfl, List.nil_append, nextName, hbefore]
    exact hquoted
  | false =>
    rw [show divider false = [','] from rfl, List.singleton_append, nextName, skipSpaces_cons rfl]
    show (if false = true then _ else if ',' = ',' then _ else _ : Except Flaw _).toOption = _
    rw [if_neg Bool.false_ne_true, if_pos rfl, hbefore]
    exact hquoted

/-! ## Values -/

theorem valueFrom_array (rounds depth : Nat) {cs ds : List Char} (h : skipSpaces cs = '[' :: ds) :
    valueFrom (rounds + 1) (depth + 1) cs = itemsFrom rounds depth [] ds := by
  rw [valueFrom, h]
  rfl

theorem valueFrom_object (rounds depth : Nat) {cs ds : List Char} (h : skipSpaces cs = '\x7b' :: ds) :
    valueFrom (rounds + 1) (depth + 1) cs = membersFrom rounds depth [] ds := by
  rw [valueFrom, h]
  rfl

theorem valueFrom_number (rounds depth : Nat) {c : Char} {cs ds : List Char} (h : skipSpaces cs = c :: ds)
    (hc : startsNumber c = true) :
    valueFrom (rounds + 1) depth cs = (fun (n, cs) => (.number n, cs)) <$> number (c :: ds) := by
  rw [valueFrom, h]
  split
  · next hnil => cases hnil
  -- No letter, quote or bracket begins a number.
  iterate 6 next h => exact absurd ((List.cons.inj h).1 ▸ hc) (by decide)
  next h =>
    obtain ⟨rfl, rfl⟩ := List.cons.inj h
    rw [if_pos hc]

theorem itemsFrom_of_none {rounds depth : Nat} {done : List Value} {cs : List Char}
    (h : nextItem done.isEmpty cs = .ok none) :
    itemsFrom (rounds + 1) depth done cs = .ok (.array done.reverse, afterClosing cs) := by
  rw [itemsFrom, h]
  rfl

theorem itemsFrom_of_some {rounds depth : Nat} {done : List Value} {cs ds : List Char}
    (h : nextItem done.isEmpty cs = .ok (some ds)) :
    itemsFrom (rounds + 1) depth done cs =
      valueFrom rounds depth ds >>= fun x => itemsFrom rounds depth (x.1 :: done) x.2 := by
  rw [itemsFrom, h]
  rfl

theorem membersFrom_of_none {rounds depth : Nat} {done : List (String × Value)} {cs : List Char}
    (h : nextName done.isEmpty cs = .ok none) :
    membersFrom (rounds + 1) depth done cs = .ok (.object done.reverse, afterClosing cs) := by
  rw [membersFrom, h]
  rfl

/-- A member is read name first, and refused with its name. -/
theorem toOption_membersFrom {rounds depth : Nat} {done : List (String × Value)} {cs ds : List Char}
    {name : Option String} (h : (nextName done.isEmpty cs).toOption = name.map fun name => some (name, ds)) :
    (membersFrom (rounds + 1) depth done cs).toOption = name.bind fun name =>
      (afterColon ds).toOption.bind fun es => (valueFrom rounds depth es).toOption.bind fun x =>
        (membersFrom rounds depth ((name, x.1) :: done) x.2).toOption := by
  rw [membersFrom, toOption_bind, h, Option.bind_map]
  cases name with
  | none => rfl
  | some name =>
    show (afterColon ds >>= fun es => valueFrom rounds depth es >>= fun x =>
      membersFrom rounds depth ((name, x.1) :: done) x.2).toOption = _
    simp only [toOption_bind, Option.bind_some]

theorem itemsFrom_blanks (rounds depth : Nat) (done : List Value) (blanks : Blanks) (cs : List Char) :
    itemsFrom rounds depth done (blanks.1 ++ cs) = itemsFrom rounds depth done cs := by
  cases rounds with
  | zero => rfl
  | succ rounds => rw [itemsFrom, itemsFrom, nextItem, nextItem, afterClosing, afterClosing, skipSpaces_blanks]

theorem membersFrom_blanks (rounds depth : Nat) (done : List (String × Value)) (blanks : Blanks) (cs : List Char) :
    membersFrom rounds depth done (blanks.1 ++ cs) = membersFrom rounds depth done cs := by
  cases rounds with
  | zero => rfl
  | succ rounds => rw [membersFrom, membersFrom, nextName, nextName, afterClosing, afterClosing, skipSpaces_blanks]

theorem NumberText.takes (n : NumberText) (rounds depth : Nat) :
    Takes (valueFrom (rounds + 1) depth) n.text (n.numeral.value?.map .number) := by
  intro blanks rest h
  obtain ⟨c, cs, htext, hc⟩ := n.exists_cons_text
  have hcs : skipSpaces (blanks.1 ++ (n.text ++ rest)) = c :: (cs ++ rest) := by
    rw [show n.text = (Document.number n).text from rfl, skipSpaces_text]
    exact congrArg (· ++ rest) htext
  rw [valueFrom_number rounds depth hcs hc, ← List.cons_append, ← htext, toOption_map, number_text n h, Option.map_map,
    Option.map_map]
  rfl

mutual

/-- **A document is read as its value**, given rounds for twice its length. -/
theorem Document.takes (d : Document) (rounds depth : Nat) (hrounds : 2 * d.text.length ≤ rounds) :
    Takes (valueFrom rounds depth) d.text (d.value? depth) := by
  obtain ⟨c, cs, htext, -, -⟩ := d.exists_cons_text
  obtain ⟨rounds, rfl⟩ : ∃ r, rounds = r + 1 := by
    rw [htext, List.length_cons] at hrounds
    exact ⟨rounds - 1, by omega⟩
  clear htext
  intro blanks rest hrest
  cases d with
  | null =>
    rw [valueFrom, skipSpaces_text]
    rfl
  | bool b =>
    cases b <;>
    · rw [valueFrom, skipSpaces_text]
      rfl
  | number n => exact n.takes rounds depth blanks rest hrest
  | string marks =>
    rw [valueFrom, skipSpaces_text]
    show ((fun x : String × List Char => (Value.string x.1, x.2)) <$>
      quoted (spell marks ++ ['"'] ++ rest)).toOption = _
    rw [List.append_assoc, toOption_map]
    show (quoted (spell marks ++ '"' :: rest)).toOption.map _ = _
    rw [quoted_spell, Option.map_map, Document.value?, Option.map_map]
    rfl
  | array items =>
    have hcs : skipSpaces (blanks.1 ++ ((Document.array items).text ++ rest)) =
        '[' :: (items.text true ++ ']' :: rest) := by
      rw [skipSpaces_text, Document.text, List.cons_append, List.append_assoc]
      rfl
    cases depth with
    | zero =>
      rw [valueFrom, hcs]
      rfl
    | succ depth =>
      rw [valueFrom_array rounds depth hcs, Document.value?, Option.map_map]
      simp only [Document.text, List.length_cons, List.length_append, List.length_nil] at hrounds
      exact items.takes rounds depth [] rest (by rw [List.isEmpty_nil]; omega)
  | object members =>
    have hcs : skipSpaces (blanks.1 ++ ((Document.object members).text ++ rest)) =
        '\x7b' :: (members.text true ++ '\x7d' :: rest) := by
      rw [skipSpaces_text, Document.text, List.cons_append, List.append_assoc]
      rfl
    cases depth with
    | zero =>
      rw [valueFrom, hcs]
      rfl
    | succ depth =>
      rw [valueFrom_object rounds depth hcs, Document.value?, Option.map_map]
      simp only [Document.text, List.length_cons, List.length_append, List.length_nil] at hrounds
      exact members.takes rounds depth [] rest (by rw [List.isEmpty_nil]; omega)

theorem Items.takes (items : Items) (rounds depth : Nat) (done : List Value) (rest : List Char)
    (hrounds : 2 * (items.text done.isEmpty).length + 1 ≤ rounds) :
    (itemsFrom rounds depth done (items.text done.isEmpty ++ ']' :: rest)).toOption =
      (items.values? depth).map fun vs => (.array (done.reverse ++ vs), rest) := by
  obtain ⟨rounds, rfl⟩ : ∃ r, rounds = r + 1 := ⟨rounds - 1, by omega⟩
  cases items with
  | nil blanks =>
    rw [Items.text_nil, itemsFrom_of_none (nextItem_nil _ blanks rest)]
    show some (Value.array done.reverse, afterClosing (blanks.1 ++ Bracket.array.closing :: rest)) = _
    rw [afterClosing_blanks .array, Items.values?, Option.map_some, List.append_nil]
  | cons before d after more =>
    have hpos := d.length_text_pos
    simp only [Items.text_cons, List.length_append] at hrounds
    have hnext := nextItem_cons done.isEmpty before d (after.1 ++ (more.text false ++ ']' :: rest))
    rw [Items.text_cons]
    simp only [List.append_assoc]
    rw [itemsFrom_of_some hnext, toOption_bind]
    have hvalue := d.takes rounds depth (by omega) .none _ (ends_blanks_append after (more.ends_text rest))
    rw [show Blanks.none.1 = [] from rfl, List.nil_append] at hvalue
    rw [show Bracket.array.closing = ']' from rfl] at hvalue
    rw [hvalue, Option.bind_map, Items.values?]
    cases d.value? depth with
    | none => rfl
    | some v =>
      have hmore := more.takes rounds depth (v :: done) rest (by rw [List.isEmpty_cons]; omega)
      show (itemsFrom rounds depth (v :: done) (after.1 ++ (more.text false ++ ']' :: rest))).toOption = _
      rw [itemsFrom_blanks, show false = (v :: done).isEmpty from rfl, hmore]
      cases more.values? depth <;> simp

theorem Members.takes (members : Members) (rounds depth : Nat) (done : List (String × Value)) (rest : List Char)
    (hrounds : 2 * (members.text done.isEmpty).length + 1 ≤ rounds) :
    (membersFrom rounds depth done (members.text done.isEmpty ++ '\x7d' :: rest)).toOption =
      (members.values? depth).map fun vs => (.object (done.reverse ++ vs), rest) := by
  obtain ⟨rounds, rfl⟩ : ∃ r, rounds = r + 1 := ⟨rounds - 1, by omega⟩
  cases members with
  | nil blanks =>
    rw [Members.text_nil, membersFrom_of_none (nextName_nil _ blanks rest)]
    show some (Value.object done.reverse, afterClosing (blanks.1 ++ Bracket.object.closing :: rest)) = _
    rw [afterClosing_blanks .object, Members.values?, Option.map_some, List.append_nil]
  | cons before name left right d after more =>
    have hpos := d.length_text_pos
    simp only [Members.text_cons, memberLead, List.length_append, List.length_cons] at hrounds
    have hnext := nextName_cons done.isEmpty before name
      (left.1 ++ ':' :: (right.1 ++ (d.text ++ (after.1 ++ (more.text false ++ '\x7d' :: rest)))))
    rw [Members.text_cons, memberLead]
    simp only [List.append_assoc, List.cons_append]
    rw [toOption_membersFrom hnext, Members.values?]
    cases said? name with
    | none => rfl
    | some cs =>
      have hvalue := d.takes rounds depth (by omega) right _ (ends_blanks_append after (more.ends_text rest))
      rw [show Bracket.object.closing = '\x7d' from rfl] at hvalue
      rw [afterColon_blanks]
      show ((valueFrom rounds depth _).toOption.bind _) = _
      rw [hvalue, Option.bind_map]
      cases d.value? depth with
      | none => rfl
      | some v =>
        have hmore := more.takes rounds depth ((String.ofList cs, v) :: done) rest (by rw [List.isEmpty_cons]; omega)
        show (membersFrom rounds depth ((String.ofList cs, v) :: done)
          (after.1 ++ (more.text false ++ '\x7d' :: rest))).toOption = _
        rw [membersFrom_blanks, show false = ((String.ofList cs, v) :: done).isEmpty from rfl, hmore]
        cases more.values? depth <;> simp

end

/-! ## Expected kinds -/

theorem takes_value (d : Document) (depth : Nat) : Takes (value depth) d.text (d.value? depth) := by
  intro blanks rest hrest
  refine d.takes _ depth ?_ blanks rest hrest
  simp only [roundsFor, List.length_append]
  omega

/-- The first character of a document tells strings and null. -/
theorem Document.exists_cons_text_of_kind (d : Document) :
    ∃ c cs, d.text = c :: cs ∧ (c = '"' → ∃ marks, d = .string marks) ∧ (c = 'n' → d = .null) := by
  cases d with
  | null => exact ⟨_, _, rfl, nofun, fun _ => rfl⟩
  | string marks => exact ⟨_, _, rfl, fun _ => ⟨marks, rfl⟩, nofun⟩
  | number n =>
    obtain ⟨c, cs, htext, hc⟩ := n.exists_cons_text
    refine ⟨c, cs, htext, ?_, ?_⟩
    · rintro rfl
      exact absurd hc (by decide)
    · rintro rfl
      exact absurd hc (by decide)
  | bool b => cases b <;> exact ⟨_, _, rfl, nofun, nofun⟩
  | _ => exact ⟨_, _, rfl, nofun, nofun⟩

/-- No other document begins like a string. -/
theorem skipSpaces_text_ne_quote {d : Document} (hd : ∀ marks, d ≠ .string marks) (blanks : Blanks)
    (rest ds : List Char) :
    skipSpaces (blanks.1 ++ (d.text ++ rest)) ≠ '"' :: ds := by
  obtain ⟨c, cs, htext, hquote, -⟩ := d.exists_cons_text_of_kind
  rw [skipSpaces_text, htext]
  intro h
  obtain ⟨marks, hmarks⟩ := hquote (List.cons.inj h).1
  exact hd marks hmarks

/-- No other document begins like null. -/
theorem skipSpaces_text_ne_null {d : Document} (hd : d ≠ .null) (blanks : Blanks) (rest ds : List Char) :
    skipSpaces (blanks.1 ++ (d.text ++ rest)) ≠ 'n' :: ds := by
  obtain ⟨c, cs, htext, -, hnull⟩ := d.exists_cons_text_of_kind
  rw [skipSpaces_text, htext]
  exact fun h => hd (hnull (List.cons.inj h).1)

/-- A reader that expects a string takes what a string says, and nothing else. -/
theorem takes_text (d : Document) : Takes text d.text d.string? := by
  intro blanks rest _
  by_cases hd : ∃ marks, d = .string marks
  · obtain ⟨marks, rfl⟩ := hd
    rw [text, skipSpaces_text]
    show (quoted (spell marks ++ ['"'] ++ rest)).toOption = _
    rw [List.append_assoc]
    show (quoted (spell marks ++ '"' :: rest)).toOption = _
    rw [quoted_spell, Document.string?, Option.map_map]
    rfl
  · have hne (marks : List Mark) : d ≠ .string marks := fun h => hd ⟨marks, h⟩
    have hnone : d.string? = none := by
      cases d with
      | string marks => exact absurd rfl (hne marks)
      | _ => rfl
    rw [text, hnone]
    split
    · next h => exact absurd h (skipSpaces_text_ne_quote hne blanks rest _)
    · rfl

/-- What a document stands for where it may be null. -/
def Document.optional? (read? : Document → Option α) : Document → Option (Option α)
  | null => some none
  | d => (read? d).map some

theorem takes_optional {read : Reader α} {read? : Document → Option α} (d : Document)
    (h : Takes read d.text (read? d)) :
    Takes (optional read) d.text (d.optional? read?) := by
  intro blanks rest hrest
  by_cases hd : d = .null
  · subst hd
    rw [optional, skipSpaces_text]
    rfl
  · have hsome : d.optional? read? = (read? d).map some := by
      cases d with
      | null => exact absurd rfl hd
      | _ => rfl
    rw [optional, hsome]
    split
    · next hnull => exact absurd hnull (skipSpaces_text_ne_null hd blanks rest _)
    · rw [skipSpaces_text, toOption_map]
      have hread := h .none rest hrest
      rw [show Blanks.none.1 = [] from rfl, List.nil_append] at hread
      rw [hread, Option.map_map, Option.map_map]
      rfl

/-- A whole text is read if it is taken up to blanks. -/
theorem Takes.run {read : Reader α} {text : List Char} {x : Option α} (h : Takes read text x) (before after : Blanks) :
    (read.run (String.ofList (before.1 ++ (text ++ after.1)))).toOption = x := by
  have hafter : skipSpaces after.1 = [] := by
    rw [← List.append_nil after.1, skipSpaces_blanks]
    rfl
  have hends : Ends after.1 := by
    rw [← List.append_nil after.1]
    exact ends_blanks_append after ends_nil
  have hread := h before after.1 hends
  rw [Reader.run, String.toList_ofList]
  cases hcs : read (before.1 ++ (text ++ after.1)) with
  | error flaw =>
    rw [hcs] at hread
    cases x with
    | none => rfl
    | some a => cases hread
  | ok y =>
    rw [hcs] at hread
    obtain ⟨a, rfl, rfl⟩ := Option.map_eq_some_iff.mp hread.symm
    simp only [bind, Except.bind, hafter]
    rfl

end EdaParts.Json
