import EdaParts.Proofs.Json.Grammar

/-!
# Strings read as they are written

* `skipQuoted_spell` : every string of the grammar is skipped, whatever it says;
* `quoted_spell` : a string is read as what it says, and refused if it says nothing.
-/

namespace EdaParts.Json

variable {rest : List Char}

/-! ## Outcomes without their flaws -/

@[simp] theorem toOption_bind {ε α β : Type} (x : Except ε α) (f : α → Except ε β) :
    (x >>= f).toOption = x.toOption.bind fun a => (f a).toOption := by
  cases x <;> rfl

@[simp] theorem toOption_map {ε α β : Type} (f : α → β) (x : Except ε α) :
    (f <$> x).toOption = x.toOption.map f := by
  cases x <;> rfl

theorem toOption_eq_some_iff {ε α : Type} {x : Except ε α} {a : α} : x.toOption = some a ↔ x = .ok a := by
  cases x <;> simp [Except.toOption]

/-! ## Escapes -/

theorem hexValue?_of_mem {d : Char × Nat} (h : d ∈ hexDigits) : hexValue? d.1 = some d.2 ∧ d.1.utf8Size = 1 := by
  have hall : ∀ d ∈ hexDigits, hexValue? d.1 = some d.2 ∧ d.1.utf8Size = 1 := by decide
  exact hall d h

theorem escaped?_of_mem {e : Char × Char} (h : e ∈ shortEscapes) : escaped? e.1 = some e.2 ∧ e.1 ≠ 'u' := by
  have hall : ∀ e ∈ shortEscapes, escaped? e.1 = some e.2 ∧ e.1 ≠ 'u' := by decide
  exact hall e h

theorem hexNumber_digits (u : CodeUnit) (rest : List Char) : hexNumber (u.digits ++ rest) = .ok u.number := by
  obtain ⟨⟨a, ha⟩, ⟨b, hb⟩, ⟨c, hc⟩, ⟨d, hd⟩⟩ := u
  have hcount : byteCount [a.1, b.1, c.1, d.1] = 4 := by
    simp [byteCount, (hexValue?_of_mem ha).2, (hexValue?_of_mem hb).2, (hexValue?_of_mem hc).2, (hexValue?_of_mem hd).2]
  have hvalues : [a.1, b.1, c.1, d.1].mapM hexValue? = some [a.2, b.2, c.2, d.2] := by
    simp [(hexValue?_of_mem ha).1, (hexValue?_of_mem hb).1, (hexValue?_of_mem hc).1, (hexValue?_of_mem hd).1]
  have htake : List.take 4 (CodeUnit.digits ⟨⟨a, ha⟩, ⟨b, hb⟩, ⟨c, hc⟩, ⟨d, hd⟩⟩ ++ rest) = [a.1, b.1, c.1, d.1] := rfl
  rw [hexNumber, htake, hcount, if_neg (by decide), hvalues]
  rfl

theorem escape_short {e : Char × Char} (h : e ∈ shortEscapes) (rest : List Char) :
    escape (e.1 :: rest) = .ok (e.2, 1) ∧ escapeLength (e.1 :: rest) = .ok 1 := by
  obtain ⟨hvalue, hu⟩ := escaped?_of_mem h
  constructor
  · unfold escape
    split
    · next hnil => cases hnil
    · next hcons => exact absurd (List.cons.inj hcons).1 hu
    · next c cs _ hcons =>
      obtain ⟨rfl, rfl⟩ := List.cons.inj hcons
      rw [hvalue]
  · unfold escapeLength
    split
    · next hnil => cases hnil
    · next hcons => exact absurd (List.cons.inj hcons).1 hu
    · next c cs _ hcons =>
      obtain ⟨rfl, rfl⟩ := List.cons.inj hcons
      rw [hvalue]
      rfl

/-! ## Skipping -/

theorem skipQuotedFrom_append (cs rest : List Char) :
    skipQuotedFrom cs.length (cs ++ rest) = skipQuotedFrom 0 rest := by
  induction cs with
  | nil => rfl
  | cons c cs ih => exact ih

theorem skipQuotedFrom_mark (m : Mark) (rest : List Char) :
    skipQuotedFrom 0 (m.text ++ rest) = skipQuotedFrom 0 rest := by
  cases m with
  | plain c h =>
    have hcontrol : isControl c = false := decide_eq_false (by omega)
    show (if c = '"' then _ else if c = '\\' then _ else if isControl c = true then _ else skipQuotedFrom 0 rest) = _
    rw [if_neg h.1, if_neg h.2.1, hcontrol, if_neg Bool.false_ne_true]
  | short e =>
    show (do skipQuotedFrom (← escapeLength (e.1.1 :: rest)) (e.1.1 :: rest)) = _
    rw [(escape_short e.2 rest).2]
    exact skipQuotedFrom_append [e.1.1] rest
  | unit u =>
    show (do skipQuotedFrom (← (fun _ => 5) <$> hexNumber (u.digits ++ rest)) ('u' :: (u.digits ++ rest))) = _
    rw [hexNumber_digits]
    exact skipQuotedFrom_append ('u' :: u.digits) rest

/-- **Every string is skipped**, whatever it says. -/
theorem skipQuoted_spell (marks : List Mark) (rest : List Char) :
    skipQuoted (spell marks ++ '"' :: rest) = .ok rest := by
  induction marks with
  | nil => rfl
  | cons m marks ih =>
    rw [spell, List.flatMap_cons, List.append_assoc]
    exact (skipQuotedFrom_mark m _).trans ih

/-! ## Reading -/

theorem quotedFrom_append (done cs rest : List Char) :
    quotedFrom done cs.length (cs ++ rest) = quotedFrom done 0 rest := by
  induction cs with
  | nil => rfl
  | cons c cs ih => exact ih

/-- After a backslash, the escape decides. -/
theorem quotedFrom_backslash (done cs : List Char) :
    quotedFrom done 0 ('\\' :: cs) = (do
      let (e, spelled) ← escape cs
      quotedFrom (e :: done) spelled cs) := rfl

theorem quotedFrom_plain (done : List Char) {c : Char} (h : c ≠ '"' ∧ c ≠ '\\' ∧ 0x20 ≤ c.toNat) (rest : List Char) :
    quotedFrom done 0 (c :: rest) = quotedFrom (c :: done) 0 rest := by
  have hcontrol : isControl c = false := decide_eq_false (by omega)
  show (if c = '"' then _ else if c = '\\' then _ else if isControl c = true then _
    else quotedFrom (c :: done) 0 rest) = _
  rw [if_neg h.1, if_neg h.2.1, hcontrol, if_neg Bool.false_ne_true]

theorem quotedFrom_short (done : List Char) {e : Char × Char} (h : e ∈ shortEscapes) (rest : List Char) :
    quotedFrom done 0 ('\\' :: e.1 :: rest) = quotedFrom (e.2 :: done) 0 rest := by
  rw [quotedFrom_backslash, (escape_short h rest).1]
  exact quotedFrom_append _ [e.1] rest

theorem escape_unit (u : CodeUnit) (rest : List Char) :
    escape ('u' :: (u.digits ++ rest)) =
      (fun (e, count) => (e, count + 1)) <$> (
        if isLowHalf u.number then .error (.before .loneSurrogate rest)
        else if isHighHalf u.number then
          match rest with
          | '\\' :: 'u' :: rest => do
            let m ← hexNumber rest
            if isLowHalf m then .ok (pairOf u.number m, 10)
            else .error (.before .loneSurrogate (rest.drop 4))
          | [] | ['\\'] => .error (.before .endInString [])
          | '\\' :: rest => .error (.within .brokenPair rest)
          | rest => .error (.within .brokenPair rest)
        else .ok (Char.ofNat u.number, 4) : Except Flaw (Char × Nat)) := by
  show (fun (e, count) => (e, count + 1)) <$> codeEscape (u.digits ++ rest) = _
  unfold codeEscape
  rw [hexNumber_digits]
  rfl

theorem escape_low {u : CodeUnit} (hlow : isLowHalf u.number = true) (rest : List Char) :
    (escape ('u' :: (u.digits ++ rest))).toOption = none := by
  rw [escape_unit, if_pos hlow]
  rfl

theorem escape_whole {u : CodeUnit} (hlow : ¬ isLowHalf u.number = true) (hhigh : ¬ isHighHalf u.number = true)
    (rest : List Char) : escape ('u' :: (u.digits ++ rest)) = .ok (Char.ofNat u.number, 5) := by
  rw [escape_unit, if_neg hlow, if_neg hhigh]
  rfl

theorem escape_pair {u v : CodeUnit} (hlow : ¬ isLowHalf u.number = true) (hhigh : isHighHalf u.number = true)
    (rest : List Char) :
    (escape ('u' :: (u.digits ++ '\\' :: 'u' :: (v.digits ++ rest)))).toOption =
      if isLowHalf v.number then some (pairOf u.number v.number, 11) else none := by
  rw [escape_unit, if_neg hlow, if_pos hhigh]
  show ((fun x : Char × Nat => (x.1, x.2 + 1)) <$> (hexNumber (v.digits ++ rest) >>= fun m =>
    if isLowHalf m then Except.ok (pairOf u.number m, 10) else .error (Flaw.before .loneSurrogate _))).toOption = _
  rw [toOption_map, toOption_bind, hexNumber_digits]
  show (Except.toOption (if isLowHalf v.number then _ else _)).map _ = _
  by_cases h : isLowHalf v.number = true
  · rw [if_pos h, if_pos h, Except.toOption, Option.map_some]
  · rw [if_neg h, if_neg h, Except.toOption, Option.map_none]

/-- The first half of a pair is refused where no escape of a code unit follows. -/
theorem escape_lone {u : CodeUnit} (hlow : ¬ isLowHalf u.number = true) (hhigh : isHighHalf u.number = true)
    (h : ∀ cs, rest ≠ '\\' :: 'u' :: cs) : (escape ('u' :: (u.digits ++ rest))).toOption = none := by
  rw [escape_unit, if_neg hlow, if_pos hhigh]
  split
  · next cs => exact absurd rfl (h cs)
  all_goals rfl

theorem quotedFrom_unit {u : CodeUnit} {c : Char} (done : List Char)
    (h : escape ('u' :: (u.digits ++ rest)) = .ok (c, 5)) :
    quotedFrom done 0 ('\\' :: 'u' :: (u.digits ++ rest)) = quotedFrom (c :: done) 0 rest := by
  rw [quotedFrom_backslash, h]
  exact quotedFrom_append _ ('u' :: u.digits) rest

/-- One more character before what a string goes on to say. -/
theorem map_reverse_cons (done : List Char) (c : Char) (said : Option (List Char)) (rest : List Char) :
    said.map (fun cs => (String.ofList ((c :: done).reverse ++ cs), rest)) =
      (said.map (c :: ·)).map fun cs => (String.ofList (done.reverse ++ cs), rest) := by
  simp only [Option.map_map, Function.comp_def, List.reverse_cons, List.append_assoc, List.singleton_append]

theorem quotedFrom_spell (done : List Char) (marks : List Mark) (rest : List Char) :
    (quotedFrom done 0 (spell marks ++ '"' :: rest)).toOption =
      (said? marks).map fun cs => (String.ofList (done.reverse ++ cs), rest) := by
  have hcons (m : Mark) (marks : List Mark) :
      spell (m :: marks) ++ '"' :: rest = m.text ++ (spell marks ++ '"' :: rest) :=
    List.append_assoc ..
  fun_induction said? marks generalizing done with
  | case1 =>
    show some (String.ofList done.reverse, rest) = some (String.ofList (done.reverse ++ []), rest)
    rw [List.append_nil]
  | case2 c h marks ih =>
    rw [hcons]
    refine (congrArg Except.toOption (quotedFrom_plain done h _)).trans ((ih _).trans ?_)
    exact map_reverse_cons ..
  | case3 e marks ih =>
    rw [hcons]
    refine (congrArg Except.toOption (quotedFrom_short done e.2 _)).trans ((ih _).trans ?_)
    exact map_reverse_cons ..
  | case4 u marks hlow =>
    rw [hcons]
    show (quotedFrom done 0 ('\\' :: 'u' :: (u.digits ++ _))).toOption = none
    rw [quotedFrom_backslash, toOption_bind, escape_low hlow]
    rfl
  | case5 u hlow hhigh v marks hpair ih =>
    rw [hcons, hcons]
    show (quotedFrom done 0 ('\\' :: 'u' :: (u.digits ++ '\\' :: 'u' :: (v.digits ++ _)))).toOption = _
    rw [quotedFrom_backslash, toOption_bind, escape_pair hlow hhigh, if_pos hpair]
    refine (congrArg Except.toOption
      (quotedFrom_append _ ('u' :: (u.digits ++ '\\' :: 'u' :: v.digits)) _)).trans ((ih _).trans ?_)
    exact map_reverse_cons ..
  | case6 u hlow hhigh v marks hpair =>
    rw [hcons, hcons]
    show (quotedFrom done 0 ('\\' :: 'u' :: (u.digits ++ '\\' :: 'u' :: (v.digits ++ _)))).toOption = none
    rw [quotedFrom_backslash, toOption_bind, escape_pair hlow hhigh, if_neg hpair]
    rfl
  | case7 u marks hlow hhigh hother =>
    rw [hcons]
    show (quotedFrom done 0 ('\\' :: 'u' :: (u.digits ++ _))).toOption = none
    rw [quotedFrom_backslash, toOption_bind, escape_lone hlow hhigh]
    · rfl
    · -- What follows is the closing quote or a mark that is no code unit.
      intro cs h
      rcases marks with _ | ⟨_ | e | v, marks⟩
      · cases (List.cons.inj h).1
      · next c hc => exact hc.2.1 (List.cons.inj h).1
      · exact (escaped?_of_mem e.2).2 (List.cons.inj (List.cons.inj h).2).1
      · exact hother v marks rfl
  | case8 u marks hlow hhigh ih =>
    rw [hcons]
    refine (congrArg Except.toOption (quotedFrom_unit done (escape_whole hlow hhigh _))).trans ((ih _).trans ?_)
    exact map_reverse_cons ..

/-- **A string is read as what it says**, and refused if it says nothing. -/
theorem quoted_spell (marks : List Mark) (rest : List Char) :
    (quoted (spell marks ++ '"' :: rest)).toOption = (said? marks).map fun cs => (String.ofList cs, rest) :=
  quotedFrom_spell [] marks rest

end EdaParts.Json
