import EdaParts.Proofs.Text.Occurrence
import EdaParts.Store.EntryPattern

/-!
# Where the first entry lies

What the search for an entry finds, said by the lines of a text and not by the steps of the search.

* `throughEnding_eq_some_iff` : an entry ends with the first line that begins with its ending;
* `splitFrom?_eq_some_iff`, `splitFrom?_eq_none_iff` : the first line on which an entry stands;
* `Opens` : an opening of the pattern stands at the front; without it there is no entry;
* `throughEnding_whole_iff` : a text that ends like an entry is taken whole just if no earlier line
  of it begins with the ending;
* `IsEntry` : a text that the search takes for the entry of a name, and of no other.
-/

namespace EdaParts.EntryPattern

open Text

/-! ## The end of an entry -/

theorem spanNewline_append (cs : List Char) : (spanNewline cs).1 ++ (spanNewline cs).2 = cs := by
  unfold spanNewline
  split <;> rfl

theorem throughEnding_eq_none_iff {w : List Char} {fresh : Bool} {cs : List Char} :
    throughEnding w fresh cs = none ↔ NoLine (w <+: ·) fresh cs := by
  fun_induction throughEnding w fresh cs with
  | case1 fresh cs h =>
    have hfront : fresh = true ∧ w <+: cs := by simpa using h
    simp only [reduceCtorEq, false_iff]
    exact fun hno => hno [] cs rfl hfront.1 hfront.2
  | case2 fresh h => simpa [noLine_nil] using h
  | case3 fresh c cs h ih =>
    have hfront : ¬(fresh = true ∧ w <+: c :: cs) := by simpa using h
    rw [Option.map_eq_none_iff, ih, noLine_cons]
    exact (and_iff_right hfront).symm

theorem throughEnding_eq_some_iff {w : List Char} {fresh : Bool} {cs m a : List Char} :
    throughEnding w fresh cs = some (m, a) ↔
      ∃ b r, FirstLine (w <+: ·) fresh cs b (w ++ r) ∧
        m = b ++ w ++ (spanNewline r).1 ∧ a = (spanNewline r).2 := by
  -- The ending stands at the front, or there is no text, or the first character goes to the entry.
  fun_induction throughEnding w fresh cs generalizing m with
  | case1 fresh cs h newline after hspan =>
    obtain ⟨hf, t, rfl⟩ : fresh = true ∧ w <+: cs := by simpa using h
    rw [List.drop_left] at hspan
    simp only [Option.some.injEq, Prod.mk.injEq, firstLine_of_front hf (List.prefix_append w t)]
    constructor
    · rintro ⟨rfl, rfl⟩
      exact ⟨[], t, ⟨rfl, rfl⟩, by rw [hspan]; rfl, by rw [hspan]⟩
    · rintro ⟨b, r, ⟨rfl, hr⟩, rfl, rfl⟩
      obtain rfl : r = t := List.append_cancel_left hr
      rw [hspan]
      exact ⟨rfl, rfl⟩
  | case2 fresh h =>
    have hfront : ¬(fresh = true ∧ w <+: []) := by simpa using h
    constructor
    · intro hs
      cases hs
    · rintro ⟨b, r, hfirst, -, -⟩
      exact absurd hfirst (not_firstLine_nil hfront)
  | case3 fresh c cs h ih =>
    have hfront : ¬(fresh = true ∧ w <+: c :: cs) := by simpa using h
    simp only [Option.map_eq_some_iff, Prod.exists, Prod.mk.injEq, firstLine_past_front hfront]
    constructor
    · rintro ⟨m', a', hsome, rfl, rfl⟩
      obtain ⟨b, r, hfirst, rfl, rfl⟩ := ih.mp hsome
      exact ⟨c :: b, r, ⟨b, rfl, hfirst⟩, rfl, rfl⟩
    · rintro ⟨_, r, ⟨b, rfl, hfirst⟩, rfl, rfl⟩
      exact ⟨_, _, ih.mpr ⟨b, r, hfirst, rfl, rfl⟩, rfl, rfl⟩

/-- Nothing is lost between an entry's rest and what follows it. -/
theorem append_of_throughEnding {w : List Char} {fresh : Bool} {cs m a : List Char}
    (h : throughEnding w fresh cs = some (m, a)) : m ++ a = cs := by
  obtain ⟨b, r, hfirst, rfl, rfl⟩ := throughEnding_eq_some_iff.mp h
  rw [hfirst.eq, List.append_assoc, List.append_assoc, spanNewline_append]

/-- A text of whole lines none of which begins with the ending goes up to the next line that does. -/
theorem throughEnding_unbroken {w body r : List Char} (hne : w ≠ []) (hw : '\n' ∉ w)
    (hbody : beginsLine false body = true) (h : ¬ '\n' :: w <:+: body) :
    throughEnding w false (body ++ (w ++ r)) =
      some (body ++ (w ++ (spanNewline r).1), (spanNewline r).2) := by
  have hpasses : Passes (w <+: ·) false body (w ++ r) := (passes_prefix_iff hne hw hbody).mpr h
  have hnow : FirstLine (w <+: ·) (beginsLine false body) (w ++ r) [] (w ++ r) :=
    firstLine_nil.mpr ⟨rfl, hbody, List.prefix_append _ _⟩
  have hfirst : FirstLine (w <+: ·) false (body ++ (w ++ r)) body (w ++ r) := by
    simpa using hpasses.firstLine hnow
  exact throughEnding_eq_some_iff.mpr ⟨body, r, hfirst, by rw [List.append_assoc], rfl⟩

/-- **A text of whole lines and a last one like an ending is taken whole** just if no line after its
first begins with the ending before the last one does. -/
theorem throughEnding_whole_iff {w body ys : List Char} (hne : w ≠ []) (hw : '\n' ∉ w)
    (hbody : beginsLine false body = true) :
    throughEnding w false (body ++ (w ++ '\n' :: ys)) = some (body ++ (w ++ ['\n']), ys) ↔
      ¬ '\n' :: w <:+: body := by
  constructor
  · rw [← passes_prefix_iff hne hw hbody, throughEnding_eq_some_iff]
    rintro ⟨b, r, hfirst, hm, ha⟩ b' r' he hr hb hp
    have hlen : body.length ≤ b.length := by
      have hsplit := congrArg List.length hm
      have hspan : (spanNewline r).1.length ≤ 1 := by
        unfold spanNewline
        split <;> simp
      simp only [List.length_append, List.length_cons, List.length_nil] at hsplit
      omega
    have hlt : b'.length < b.length := by
      have hpos : 0 < r'.length := List.length_pos_iff.mpr hr
      rw [he, List.length_append] at hlen
      omega
    exact hfirst.first b' _ (by rw [he, List.append_assoc]) hlt hb hp
  · intro h
    rw [throughEnding_unbroken hne hw hbody h]
    rfl

theorem throughEnding_isSome {w body ys : List Char} (hbody : beginsLine false body = true) :
    ∃ m a, throughEnding w false (body ++ (w ++ ys)) = some (m, a) := by
  cases h : throughEnding w false (body ++ (w ++ ys)) with
  | some p => exact ⟨p.1, p.2, rfl⟩
  | none =>
    have hno := throughEnding_eq_none_iff.mp h
    exact absurd (List.prefix_append w ys) (hno body (w ++ ys) rfl hbody)

/-! ## The entry at the front -/

/-- An opening of an entry stands at the front. -/
def Opens (p : EntryPattern) (cs : List Char) : Prop :=
  ∃ o ∈ p.openings, o <+: cs

theorem openedBy?_append (p : EntryPattern) (o cs : List Char) :
    p.openedBy? (o ++ cs) o =
      (throughEnding p.ending false cs).map fun (m, a) => (o ++ m, a) := by
  rw [openedBy?, if_pos (List.isPrefixOf_iff_prefix.mpr (List.prefix_append _ _)), List.drop_left]

theorem here?_eq_some {p : EntryPattern} {cs m a : List Char} (h : p.here? cs = some (m, a)) :
    ∃ o ∈ p.openings, ∃ r e, cs = o ++ r ∧ throughEnding p.ending false r = some (e, a) ∧
      m = o ++ e := by
  obtain ⟨o, ho, hopened⟩ := List.exists_of_findSome?_eq_some h
  by_cases hp : o <+: cs
  · obtain ⟨r, rfl⟩ := hp
    rw [openedBy?_append, Option.map_eq_some_iff] at hopened
    obtain ⟨⟨e, a'⟩, he, heq⟩ := hopened
    obtain ⟨rfl, rfl⟩ := Prod.mk.inj heq
    exact ⟨o, ho, r, e, rfl, he, rfl⟩
  · rw [openedBy?, if_neg (mt List.isPrefixOf_iff_prefix.mp hp)] at hopened
    cases hopened

/-- Nothing is lost between an entry and what follows it. -/
theorem append_of_here? {p : EntryPattern} {cs m a : List Char} (h : p.here? cs = some (m, a)) :
    m ++ a = cs := by
  obtain ⟨o, -, r, e, rfl, he, rfl⟩ := here?_eq_some h
  rw [List.append_assoc, append_of_throughEnding he]

theorem opens_of_here? {p : EntryPattern} {cs : List Char} (h : (p.here? cs).isSome) :
    p.Opens cs := by
  obtain ⟨⟨m, a⟩, hm⟩ := Option.isSome_iff_exists.mp h
  obtain ⟨o, ho, r, e, rfl, -⟩ := here?_eq_some hm
  exact ⟨o, ho, List.prefix_append _ _⟩

theorem here?_isSome_iff {p : EntryPattern} {cs : List Char} :
    (p.here? cs).isSome ↔
      ∃ o ∈ p.openings, ∃ r, cs = o ++ r ∧ ¬ NoLine (p.ending <+: ·) false r := by
  constructor
  · intro h
    obtain ⟨⟨m, a⟩, hm⟩ := Option.isSome_iff_exists.mp h
    obtain ⟨o, ho, r, e, rfl, he, -⟩ := here?_eq_some hm
    refine ⟨o, ho, r, rfl, fun hn => ?_⟩
    rw [throughEnding_eq_none_iff.mpr hn] at he
    cases he
  · rintro ⟨o, ho, r, rfl, hn⟩
    rw [here?, List.isSome_findSome?, List.any_eq_true]
    refine ⟨o, ho, ?_⟩
    rw [openedBy?_append, Option.isSome_map, Option.isSome_iff_ne_none]
    exact fun h => hn (throughEnding_eq_none_iff.mp h)

/-- The best opening decides, if the entry it opens ends. -/
theorem here?_append {p : EntryPattern} {o r e a : List Char} {os : List (List Char)}
    (hp : p.openings = o :: os) (h : throughEnding p.ending false r = some (e, a)) :
    p.here? (o ++ r) = some (o ++ e, a) := by
  rw [here?, hp, List.findSome?_cons, openedBy?_append, h]
  rfl

/-- What opens and ends like an entry begins with one. It is that entry just if no line of its body
is like its last one. -/
theorem here?_whole_iff {p : EntryPattern} {o body ys : List Char} {os : List (List Char)}
    (hp : p.openings = o :: os) (hne : p.ending ≠ []) (hending : '\n' ∉ p.ending)
    (hbody : beginsLine false body = true) :
    ∃ m a, p.here? (o ++ (body ++ (p.ending ++ ['\n'])) ++ ys) = some (m, a) ∧
      ((m, a) = (o ++ (body ++ (p.ending ++ ['\n'])), ys) ↔ ¬ '\n' :: p.ending <:+: body) := by
  have hassoc : o ++ (body ++ (p.ending ++ ['\n'])) ++ ys =
      o ++ (body ++ (p.ending ++ '\n' :: ys)) := by simp
  obtain ⟨m, a, hm⟩ : ∃ m a, throughEnding p.ending false (body ++ (p.ending ++ '\n' :: ys)) =
      some (m, a) := throughEnding_isSome hbody
  have hwhole : throughEnding p.ending false (body ++ (p.ending ++ '\n' :: ys)) =
      some (body ++ (p.ending ++ ['\n']), ys) ↔ ¬ '\n' :: p.ending <:+: body :=
    throughEnding_whole_iff hne hending hbody
  rw [hm] at hwhole
  refine ⟨o ++ m, a, by rw [hassoc, here?_append hp hm], ?_⟩
  rw [← hwhole]
  simp

/-! ## The first entry -/

theorem atFront_eq_none_iff {p : EntryPattern} {fresh : Bool} {cs : List Char} :
    (if fresh then p.here? cs else none) = none ↔ ¬(fresh = true ∧ (p.here? cs).isSome) := by
  cases fresh <;> simp

theorem splitFrom?_eq_none_iff {p : EntryPattern} {fresh : Bool} {cs : List Char} :
    p.splitFrom? fresh cs = none ↔ NoLine (fun r => (p.here? r).isSome) fresh cs := by
  fun_induction splitFrom? p fresh cs with
  | case1 fresh cs e after h =>
    obtain ⟨hf, hhere⟩ : fresh = true ∧ p.here? cs = some (e, after) := by simpa using h
    have hsome : (p.here? cs).isSome := by rw [hhere]; rfl
    simp only [reduceCtorEq, false_iff]
    exact fun hno => hno [] cs rfl hf hsome
  | case2 fresh h => simpa [noLine_nil] using atFront_eq_none_iff.mp h
  | case3 fresh c cs h ih =>
    rw [Option.map_eq_none_iff, ih, noLine_cons]
    exact (and_iff_right (atFront_eq_none_iff.mp h)).symm

theorem splitFrom?_eq_some_iff {p : EntryPattern} {fresh : Bool} {cs b m a : List Char} :
    p.splitFrom? fresh cs = some (b, m, a) ↔
      ∃ r, FirstLine (fun r => (p.here? r).isSome) fresh cs b r ∧ p.here? r = some (m, a) := by
  fun_induction splitFrom? p fresh cs generalizing b with
  | case1 fresh cs e after h =>
    obtain ⟨hf, hhere⟩ : fresh = true ∧ p.here? cs = some (e, after) := by simpa using h
    have hsome : (p.here? cs).isSome := by rw [hhere]; rfl
    rw [Option.some.injEq, Prod.mk.injEq, Prod.mk.injEq]
    constructor
    · rintro ⟨rfl, rfl, rfl⟩
      exact ⟨cs, firstLine_nil.mpr ⟨rfl, hf, hsome⟩, hhere⟩
    · rintro ⟨r, hfirst, hr⟩
      obtain ⟨rfl, rfl⟩ := (firstLine_of_front hf hsome).mp hfirst
      rw [hhere] at hr
      exact ⟨rfl, Prod.mk.inj (Option.some.inj hr)⟩
  | case2 fresh h =>
    constructor
    · intro hs
      cases hs
    · rintro ⟨r, hfirst, -⟩
      exact absurd hfirst (not_firstLine_nil (atFront_eq_none_iff.mp h))
  | case3 fresh c cs h ih =>
    rw [atFront_eq_none_iff] at h
    simp only [Option.map_eq_some_iff, Prod.exists, Prod.mk.injEq]
    constructor
    · rintro ⟨b', m', a', hsplit, rfl, rfl, rfl⟩
      obtain ⟨r, hfirst, hr⟩ := ih.mp hsplit
      exact ⟨r, (firstLine_past_front h).mpr ⟨b', rfl, hfirst⟩, hr⟩
    · rintro ⟨r, hfirst, hr⟩
      obtain ⟨b', rfl, hfirst'⟩ := (firstLine_past_front h).mp hfirst
      exact ⟨b', m, a, ih.mpr ⟨r, hfirst', hr⟩, rfl, rfl, rfl⟩

/-- Nothing is lost around the first entry. -/
theorem append_of_split? {p : EntryPattern} {library before entry after : String}
    (h : p.split? library = some (before, entry, after)) : library = before ++ entry ++ after := by
  obtain ⟨⟨b, m, a⟩, hsplit, heq⟩ := Option.map_eq_some_iff.mp h
  obtain ⟨rfl, rfl, rfl⟩ : String.ofList b = before ∧ String.ofList m = entry ∧
      String.ofList a = after := by simpa using heq
  obtain ⟨r, hfirst, hr⟩ := splitFrom?_eq_some_iff.mp hsplit
  rw [← String.toList_inj, hfirst.eq, ← append_of_here? hr]
  simp

theorem splitFrom?_eq_none {p : EntryPattern} {fresh : Bool} {cs : List Char}
    (h : NoLine p.Opens fresh cs) : p.splitFrom? fresh cs = none :=
  splitFrom?_eq_none_iff.mpr (h.mono fun _ => opens_of_here?)

/-- What stands before the first line that opens an entry is passed. -/
theorem splitFrom?_append {p : EntryPattern} {xs ys m a : List Char}
    (hx : Passes p.Opens true xs ys) (hb : beginsLine true xs = true)
    (h : p.here? ys = some (m, a)) : p.splitFrom? true (xs ++ ys) = some (xs, m, a) := by
  refine splitFrom?_eq_some_iff.mpr ⟨ys, ?_, h⟩
  have hnow : FirstLine (fun r => (p.here? r).isSome) (beginsLine true xs) ys [] ys :=
    firstLine_nil.mpr ⟨rfl, hb, by rw [h]; rfl⟩
  simpa using (hx.mono fun _ => opens_of_here?).firstLine hnow

/-! ## Texts that are entries -/

/-- A text is the entry of a name: the search for that name takes it whole where it stands, and the
search for any other name without blanks passes it. -/
structure IsEntry (schema : Schema) (name : String) (e : List Char) : Prop where
  here : ∀ ys, (ofName schema name).here? (e ++ ys) = some (e, ys)
  passed : ∀ n, n ≠ name → ' ' ∉ n.toList → ∀ ys, Passes (ofName schema n).Opens true e ys
  begins : beginsLine true e = true

end EdaParts.EntryPattern
