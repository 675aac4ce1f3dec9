import EdaParts.Proofs.Json.Strings
import EdaParts.Proofs.Record.Reading

/-!
# Numbers read as they are written

* `Ends` : a text that may follow a document, so that a number ends before it;
* `exists_numeral_text` : a number is taken as far as it goes, with the digits it is written with;
* `number_text`, `skipNumber_text` : it is read as its value, and refused if that is too large; it is skipped
  whatever its size.
-/

namespace EdaParts.Json

variable {ds rest : List Char}

/-- Nothing follows, or a blank, a comma or a closing bracket. -/
def Ends (cs : List Char) : Prop :=
  ∀ c ∈ cs.head?, isSpace c = true ∨ c = ',' ∨ c = ']' ∨ c = '\x7d'

theorem ends_nil : Ends [] := fun _ h => nomatch h

theorem ends_cons {c : Char} (h : isSpace c = true ∨ c = ',' ∨ c = ']' ∨ c = '\x7d') (cs : List Char) :
    Ends (c :: cs) := fun _ hd => Option.some.inj hd ▸ h

theorem ends_blanks_append (blanks : Blanks) (h : Ends rest) : Ends (blanks.1 ++ rest) := by
  obtain ⟨_ | ⟨c, cs⟩, hblanks⟩ := blanks
  · exact h
  · exact ends_cons (.inl (hblanks c List.mem_cons_self)) _

/-- No character of a number may follow a document. -/
theorem Ends.not_mem (h : Ends rest) {c : Char} (hc : c.isDigit = true ∨ c ∈ ['.', 'e', 'E']) : c ∉ rest.head? := by
  intro hmem
  obtain hspace | rfl | rfl | rfl := h c hmem
  · have hblank : c = ' ' ∨ c = '\t' ∨ c = '\n' ∨ c = '\r' := by simpa [isSpace, or_assoc] using hspace
    obtain rfl | rfl | rfl | rfl := hblank <;> exact absurd hc (by decide)
  all_goals exact absurd hc (by decide)

theorem startsWithDigit_eq_false_iff {cs : List Char} :
    startsWithDigit cs = false ↔ ∀ c ∈ cs.head?, c.isDigit = false := by
  cases cs <;> simp [startsWithDigit]

theorem Ends.startsWithDigit (h : Ends rest) : startsWithDigit rest = false := by
  rw [startsWithDigit_eq_false_iff]
  intro c hc
  exact Bool.eq_false_iff.mpr fun hdigit => h.not_mem (.inl hdigit) hc

/-! ## Digits -/

theorem spanDigits_append (hds : ∀ d ∈ ds, d.isDigit = true) (h : startsWithDigit rest = false) :
    Decimal.spanDigits (ds ++ rest) = (ds, rest) := by
  have hrest : rest.takeWhile Char.isDigit = [] ∧ rest.dropWhile Char.isDigit = rest := by
    cases rest with
    | nil => exact ⟨rfl, rfl⟩
    | cons c cs =>
      have hc : c.isDigit = false := startsWithDigit_eq_false_iff.mp h c rfl
      simp [hc]
  rw [Decimal.spanDigits, List.takeWhile_append_of_pos hds, List.dropWhile_append_of_pos hds, hrest.1, hrest.2,
    List.append_nil]

theorem startsWithDigit_append (hne : ds ≠ []) (hds : ∀ d ∈ ds, d.isDigit = true) (rest : List Char) :
    startsWithDigit (ds ++ rest) = true := by
  cases ds with
  | nil => exact absurd rfl hne
  | cons d ds => exact hds d List.mem_cons_self

theorem someDigits_append (atEnd : Cause) (hne : ds ≠ []) (hds : ∀ d ∈ ds, d.isDigit = true)
    (h : startsWithDigit rest = false) : someDigits atEnd (ds ++ rest) = .ok (ds, rest) := by
  have hstarts := startsWithDigit_append hne hds rest
  have hspan := spanDigits_append hds h
  cases hcs : ds ++ rest with
  | nil => exact absurd (List.append_eq_nil_iff.mp hcs).1 hne
  | cons c cs =>
    rw [hcs] at hstarts hspan
    rw [someDigits, if_pos hstarts, hspan]
    exact fun hnil => nomatch hnil

theorem wholeDigits_append (atEnd : Cause) (n : NumberText) (h : startsWithDigit rest = false) :
    wholeDigits atEnd (n.whole ++ rest) = .ok (n.whole, rest) := by
  obtain ⟨-, whole, -, -, hne, hdigits, hzero, -⟩ := n
  dsimp only
  have hspan := spanDigits_append hdigits h
  cases whole with
  | nil => exact absurd rfl hne
  | cons d ds =>
    by_cases hd : d = '0'
    · obtain rfl : ds = [] := (List.cons.inj (hzero (congrArg some hd))).2
      rw [hd]
      show (if startsWithDigit rest = true then _ else Except.ok (['0'], rest)) = _
      rw [h, if_neg Bool.false_ne_true]
    · rw [List.cons_append] at hspan ⊢
      have hstarts : startsWithDigit (d :: (ds ++ rest)) = true := hdigits d List.mem_cons_self
      unfold wholeDigits
      split
      · next hnil => cases hnil
      · next hcons => exact absurd (List.cons.inj hcons).1 hd
      · rw [if_pos hstarts, hspan]

/-! ## Fractions and exponents -/

theorem ExponentText.exponentDigits_append (atEnd : Cause) (e : ExponentText) (h : startsWithDigit rest = false) :
    exponentDigits atEnd (e.text ++ rest) = .ok (some (e.sign = some true, e.digits), rest) := by
  have hsign : Decimal.splitSign (signText e.sign ++ (e.digits ++ rest)) =
      (decide (e.sign = some true), e.digits ++ rest) := by
    rcases e.sign with _ | _ | _
    · obtain ⟨d, ds, hds⟩ := List.exists_cons_of_ne_nil e.digits_ne
      have hd : d.isDigit = true := e.isDigit d (hds ▸ List.mem_cons_self)
      rw [hds]
      unfold signText Decimal.splitSign
      split
      · next hminus => rw [(List.cons.inj hminus).1] at hd; exact absurd hd (by decide)
      · next hplus => rw [(List.cons.inj hplus).1] at hd; exact absurd hd (by decide)
      · rfl
    · rfl
    · rfl
  rw [text, List.cons_append, List.append_assoc, exponentDigits, if_pos e.letter_eq, hsign]
  dsimp only
  rw [someDigits_append atEnd e.digits_ne e.isDigit h]
  rfl

/-- What may follow the fraction of a number that is written out. -/
def exponentText (e : Option ExponentText) : List Char := (e.map ExponentText.text).getD []

theorem exponentDigits_text (atEnd : Cause) (e : Option ExponentText) (h : Ends rest) :
    exponentDigits atEnd (exponentText e ++ rest) =
      .ok (e.map fun e => (decide (e.sign = some true), e.digits), rest) := by
  cases e with
  | some e => exact e.exponentDigits_append atEnd h.startsWithDigit
  | none =>
    show exponentDigits atEnd rest = .ok (none, rest)
    cases rest with
    | nil => rfl
    | cons c cs =>
      have hc : ¬ (c = 'e' ∨ c = 'E') := by
        rintro (rfl | rfl) <;> exact h.not_mem (.inr (by decide)) rfl
      rw [exponentDigits, if_neg hc]

theorem not_mem_head?_exponentText (e : Option ExponentText) (h : Ends rest) {c : Char}
    (hc : c.isDigit = true ∨ c = '.') : c ∉ (exponentText e ++ rest).head? := by
  cases e with
  | none => exact h.not_mem (hc.imp_right fun hpoint => by rw [hpoint]; decide)
  | some e =>
    rintro hmem
    obtain rfl : e.letter = c := Option.some.inj hmem
    obtain hletter | hletter := e.letter_eq <;> rw [hletter] at hc <;> exact absurd hc (by decide)

theorem fractionDigits_text (atEnd : Cause) (n : NumberText) (h : Ends rest) :
    fractionDigits atEnd (NumberText.fractionText n.fraction ++ (exponentText n.exponent ++ rest)) =
      .ok (n.fraction, exponentText n.exponent ++ rest) := by
  obtain ⟨-, -, fraction, exponent, -, -, -, hdigits⟩ := n
  dsimp only
  cases fraction with
  | cons d ds =>
    have hstarts : startsWithDigit (exponentText exponent ++ rest) = false :=
      startsWithDigit_eq_false_iff.mpr fun c hc =>
        Bool.eq_false_iff.mpr fun hdigit => not_mem_head?_exponentText _ h (.inl hdigit) hc
    exact someDigits_append atEnd (List.cons_ne_nil d ds) hdigits hstarts
  | nil =>
    show fractionDigits atEnd (exponentText exponent ++ rest) = .ok ([], exponentText exponent ++ rest)
    unfold fractionDigits
    split
    · next hpoint =>
      exact absurd (congrArg List.head? hpoint) fun h' => not_mem_head?_exponentText _ h (.inr rfl) h'
    · rfl

theorem startsWithDigit_fractionText (n : NumberText) (h : Ends rest) :
    startsWithDigit (NumberText.fractionText n.fraction ++ (exponentText n.exponent ++ rest)) = false := by
  cases n.fraction with
  | cons d ds => rfl
  | nil =>
    exact startsWithDigit_eq_false_iff.mpr fun c hc =>
      Bool.eq_false_iff.mpr fun hdigit => not_mem_head?_exponentText _ h (.inl hdigit) hc

/-! ## Numbers -/

/-- The numeral after its sign, told by whether that is a minus. -/
def unsignedNumeral (atEnd : Cause) (negative : Bool) : Reader (Numeral × List Char) := fun cs => do
  let (whole, cs) ← wholeDigits atEnd cs
  let (fraction, cs) ← fractionDigits atEnd cs
  let (power, cs) ← exponentDigits atEnd cs
  let exponent := power.map fun (negative, ds) =>
    let n : Int := Decimal.digitsValue 0 ds
    if negative then -n else n
  let excess := (power.bind fun (_, ds) => excessDigits 0 ds).getD []
  return ((⟨negative, whole, fraction, exponent⟩, excess ++ cs), cs)

theorem numeral_minus (atEnd : Cause) (cs : List Char) :
    numeral atEnd ('-' :: cs) = unsignedNumeral atEnd true cs := rfl

theorem numeral_of_digit (atEnd : Cause) {d : Char} (hd : d.isDigit = true) (cs : List Char) :
    numeral atEnd (d :: cs) = unsignedNumeral atEnd false (d :: cs) := by
  unfold numeral
  split
  next negative cs' hsign =>
    split at hsign
    · next hminus =>
      rw [(List.cons.inj hminus).1] at hd
      exact absurd hd (by decide)
    · cases hsign
      rfl

theorem numeral_text (atEnd : Cause) (n : NumberText) (rest : List Char) : numeral atEnd (n.text ++ rest) =
    unsignedNumeral atEnd n.negative
      (n.whole ++ (NumberText.fractionText n.fraction ++ (exponentText n.exponent ++ rest))) := by
  obtain ⟨d, ds, hds⟩ := List.exists_cons_of_ne_nil n.whole_ne
  have hd : d.isDigit = true := n.whole_isDigit d (hds ▸ List.mem_cons_self)
  rw [NumberText.text, List.append_assoc, List.append_assoc, List.append_assoc, hds]
  cases n.negative with
  | true => exact numeral_minus ..
  | false => exact numeral_of_digit atEnd hd _

/-- **A number is taken as far as it goes**, with the digits that it is written with. -/
theorem exists_numeral_text (atEnd : Cause) (n : NumberText) (h : Ends rest) :
    ∃ left, numeral atEnd (n.text ++ rest) = .ok ((n.numeral, left), rest) := by
  let power := n.exponent.map fun e => (decide (e.sign = some true), e.digits)
  have hexponent : power.map (fun x : Bool × List Char =>
      let k : Int := Decimal.digitsValue 0 x.2
      if x.1 then -k else k) = n.exponent.map ExponentText.number := by
    show (n.exponent.map _).map _ = _
    cases n.exponent with
    | none => rfl
    | some e => simp [ExponentText.number]
  rw [numeral_text]
  refine ⟨(power.bind fun x => excessDigits 0 x.2).getD [] ++ rest, ?_⟩
  refine bind_eq_ok_iff.mpr ⟨_, wholeDigits_append atEnd n (startsWithDigit_fractionText n h), ?_⟩
  refine bind_eq_ok_iff.mpr ⟨_, fractionDigits_text atEnd n h, ?_⟩
  refine bind_eq_ok_iff.mpr ⟨_, exponentDigits_text atEnd n.exponent h, ?_⟩
  exact congrArg (fun e => Except.ok (((⟨n.negative, n.whole, n.fraction, e⟩ : Numeral),
    (power.bind fun x => excessDigits 0 x.2).getD [] ++ rest), rest)) hexponent

/-- A number is read as its value, and refused if that is too large. -/
theorem number_text (n : NumberText) (h : Ends rest) :
    (number (n.text ++ rest)).toOption = n.numeral.value?.map fun x => (x, rest) := by
  obtain ⟨left, hread⟩ := exists_numeral_text .endInValue n h
  rw [number, hread]
  simp only [bind, Except.bind]
  cases n.numeral.value? <;> rfl

theorem skipNumber_text (n : NumberText) (h : Ends rest) : skipNumber (n.text ++ rest) = .ok rest := by
  obtain ⟨left, hread⟩ := exists_numeral_text .badNumber n h
  rw [skipNumber, hread]
  rfl

/-- A number begins with a minus or a digit. -/
theorem NumberText.exists_cons_text (n : NumberText) : ∃ c cs, n.text = c :: cs ∧ startsNumber c = true := by
  obtain ⟨d, ds, hds⟩ := List.exists_cons_of_ne_nil n.whole_ne
  have hd : d.isDigit = true := n.whole_isDigit d (hds ▸ List.mem_cons_self)
  rw [NumberText.text, hds]
  cases n.negative with
  | true => exact ⟨'-', _, rfl, rfl⟩
  | false => exact ⟨d, _, rfl, by rw [startsNumber, hd, Bool.or_true]⟩

end EdaParts.Json
