import EdaParts.Proofs.Modern.Layout
import EdaParts.Proofs.Store.Operations

/-!
# Libraries laid out by lines

In a library whose lines show its symbols, the search for entries finds the children, and storing an
entry stores a child, whoever laid the library out.

* `splitFrom?_isSome_iff` : an entry of a name is found just if a child is a symbol of that name;
* `exists_of_splitFrom?` : the entry that is found is the first such child, and is taken whole;
* `insert_children` : storing an entry puts a child;
* `exec_children` : so do the operations on a file.
-/

namespace EdaParts.Modern

open Text EntryPattern

section
variable {text b m a ys zs body : List Char} {cs post ds : List Datum} {n : String}

theorem isSymbol_symbol (s : Symbol) : (symbol s).datum.isSymbol s.name = true :=
  Datum.isSymbol_iff.mpr ⟨_, rfl⟩

/-! ## Finding an entry -/

/-- A line that begins like a symbol opens an entry if a later one begins with a closing parenthesis. -/
theorem here?_isSome (hbody : beginsLine false body = true) :
    ((ofName .modern n).here? (opening n ++ (body ++ ')' :: ys))).isSome := by
  refine here?_isSome_iff.mpr ⟨opening n, by rw [openings_ofName]; simp, _, rfl, fun hno => ?_⟩
  exact hno body (')' :: ys) rfl hbody ⟨ys, rfl⟩

/-- **An entry is found** just if a child is a symbol of its name. -/
theorem splitFrom?_isSome_iff (h : IsLibrary text cs) (hl : LaidOut text) :
    ((ofName .modern n).splitFrom? true text).isSome ↔ ∃ c ∈ cs, c.isSymbol n = true := by
  constructor
  · intro hsome
    obtain ⟨⟨b, m, a⟩, hsplit⟩ := Option.isSome_iff_exists.mp hsome
    obtain ⟨r, hfirst, hr⟩ := splitFrom?_eq_some_iff.mp hsplit
    obtain ⟨ys, rfl⟩ := opens_iff.mp (opens_of_here? (by rw [hr]; rfl))
    obtain ⟨items, body, zs, rest, post, back, -, -, -, -, -, -, hcs⟩ :=
      hl.opens h hfirst.eq hfirst.begins
    have hmem : Datum.list (.word symbolHead :: .text n.toList :: rest) ∈
        Datum.word libraryHead :: cs := by
      rw [hcs]
      exact List.mem_append_right _ List.mem_cons_self
    rcases List.mem_cons.mp hmem with hword | hmem
    · cases hword
    · exact ⟨_, hmem, Datum.isSymbol_iff.mpr ⟨rest, rfl⟩⟩
  · rintro ⟨c, hc, hn⟩
    obtain ⟨xs, body, ys, htext, hxs, hbody⟩ := hl.opened h hc hn
    rw [Option.isSome_iff_ne_none]
    intro hnone
    exact splitFrom?_eq_none_iff.mp hnone xs _ htext hxs (here?_isSome hbody)

/-- What remains of a text once the end of a line at its front is taken says the same. -/
theorem exists_spanNewline (h : Reads zs post) (back : List Char) : ∃ ys, Reads ys post ∧
    (spanNewline (zs ++ ')' :: back)).2 = ys ++ ')' :: back := by
  cases zs with
  | nil => exact ⟨[], h, rfl⟩
  | cons c zs =>
    by_cases hc : c = '\n'
    · subst hc
      exact ⟨zs, (reads_cons_iff rfl).mp h, rfl⟩
    · refine ⟨c :: zs, h, ?_⟩
      unfold spanNewline
      split
      · next hcons => exact absurd (List.cons.inj hcons).1 hc
      · rfl

/-- **The entry that is found** is the first symbol of its name among the children. What stands before
and after it says the others. -/
theorem exists_of_splitFrom? (h : IsLibrary text cs) (hl : LaidOut text)
    (hsplit : (ofName .modern n).splitFrom? true text = some (b, m, a)) :
    ∃ items c post ys back, Amid b items ∧ a = ys ++ ')' :: back ∧ Reads ys post ∧ Reads back [] ∧
      .word libraryHead :: cs = items ++ c :: post ∧ c.isSymbol n = true ∧
      ∀ d ∈ items, d.isSymbol n = false := by
  obtain ⟨r, hfirst, hr⟩ := splitFrom?_eq_some_iff.mp hsplit
  obtain ⟨ys, rfl⟩ := opens_iff.mp (opens_of_here? (by rw [hr]; rfl))
  obtain ⟨items, body, zs, rest, post, back, hitems, rfl, hbody, hfree, hzs, hback, hcs⟩ :=
    hl.opens h hfirst.eq hfirst.begins
  have hwhole := throughEnding_unbroken (r := zs ++ ')' :: back) (List.cons_ne_nil _ [])
    (by decide) hbody hfree
  have hhere := here?_append (openings_ofName n) hwhole
  rw [List.singleton_append, hr] at hhere
  obtain ⟨-, rfl⟩ := Prod.mk.inj (Option.some.inj hhere)
  obtain ⟨ys, hys, hrest⟩ := exists_spanNewline hzs back
  refine ⟨items, _, post, ys, back, hitems, hrest, hys, hback, hcs,
    Datum.isSymbol_iff.mpr ⟨rest, rfl⟩, fun d hd => ?_⟩
  -- An earlier symbol of the name would have been found before.
  rw [← Bool.not_eq_true]
  intro hn
  obtain ⟨rest', rfl⟩ := Datum.isSymbol_iff.mp hn
  obtain ⟨xs, inner, us, before, rfl, hxs, hinner⟩ := hitems.origin hd
  let later := us ++ (opening n ++ (body ++ ')' :: (zs ++ ')' :: back)))
  have htext : text = xs ++ '(' :: (inner ++ ')' :: later) := by
    rw [hfirst.eq]
    simp [later]
  obtain ⟨hfresh, body', hbody', hends, -⟩ := hl.symbols xs inner later before n rest' htext hxs hinner
  have hearlier : text = xs ++ (opening n ++ (body' ++ ')' :: later)) := by
    rw [htext, hbody', opening_eq_heading]
    simp
  exact hfirst.first xs _ hearlier (by simp) hfresh (here?_isSome hends)

/-! ## Storing an entry -/

/-- An entry in the place of the one that is found is a child in the place of the first of its name. -/
theorem isLibrary_replace {s : Symbol} (h : IsLibrary text cs) (hl : LaidOut text)
    (hsplit : (ofName .modern s.name).splitFrom? true text = some (b, m, a)) :
    IsLibrary (b ++ ((symbolEntry s).toList ++ a)) (putChild s.name (symbol s).datum cs) := by
  obtain ⟨items, c, post, ys, back, hitems, rfl, hys, hback, hcs, hc, hfirst⟩ :=
    exists_of_splitFrom? h hl hsplit
  rw [← List.append_assoc (symbolEntry s).toList]
  refine hitems.isLibrary (reads_symbolEntry_append s hys) (apart_symbolEntry_append s ys) hback ?_
  -- The word at the front of the library is no symbol.
  cases items with
  | nil =>
    obtain ⟨rfl, -⟩ := List.cons.inj hcs
    cases hc
  | cons d items =>
    rw [List.cons_append] at hcs
    obtain ⟨rfl, rfl⟩ := List.cons.inj hcs
    rw [putChild_append (List.forall_mem_cons.mp hfirst).2 hc, List.cons_append]

/-- An entry before the last footer is a child after all others. -/
theorem isLibrary_append (h : IsLibrary text cs) (hl : LaidOut text) (s : Symbol) :
    ∃ xs back, cutLast libraryFooter.toList text = some (xs, back) ∧
      IsLibrary (xs ++ ((symbolEntry s).toList ++ back)) (cs ++ [(symbol s).datum]) := by
  obtain ⟨front, inner, back, rfl, hfront, hinner, hback⟩ := isLibrary_iff.mp h
  obtain ⟨xs, ys, hxs, hys⟩ := hl.closed
  have hblank : ')' ∉ back := fun hmem => Bool.false_ne_true (reads_nil_iff.mp hback _ hmem)
  have hlast : ')' ∉ '\n' :: ys := by simp [hys]
  have hassoc : (front ++ '(' :: inner) ++ ')' :: back = xs ++ ')' :: '\n' :: ys := by
    rw [← hxs]
    simp
  obtain ⟨rfl, rfl⟩ := eq_of_append_cons hblank hlast hassoc
  refine ⟨front ++ '(' :: inner, ')' :: '\n' :: ys, ?_, ?_⟩
  · rw [hxs]
    refine cutLast_append ⟨ys, rfl⟩ (List.cons_ne_nil _ _) fun hin => ?_
    exact hlast (hin.subset (by decide))
  · have hamid : Amid (front ++ '(' :: inner) (.word libraryHead :: cs) :=
      ⟨front, inner, rfl, hfront, hinner⟩
    have happend : IsLibrary (front ++ '(' :: inner ++ (((symbolEntry s).toList ++ []) ++ ')' :: '\n' :: ys))
        (cs ++ [(symbol s).datum]) :=
      hamid.isLibrary (reads_symbolEntry_append s reads_nil) (apart_symbolEntry_append s []) hback rfl
    simpa using happend

end

end EdaParts.Modern

namespace EdaParts.SymbolLibrary

open Text EntryPattern Modern

variable (l : SymbolLibrary) {text : String} {cs : List Datum}

theorem contents_of_isLibrary (h : IsLibrary text.toList cs) : l.contents text = text := by
  obtain ⟨front, inner, back, htext, -⟩ := isLibrary_iff.mp h
  have hblank : isBlankText text = false := by
    have hopen : isBlank '(' = false := by decide
    unfold isBlankText
    rw [htext, List.all_append, List.all_cons]
    simp [hopen]
  rw [contents, hblank]
  rfl

/-- **Storing an entry puts a child**, unless a symbol of its name is there and may not be replaced. -/
theorem insert_children (hschema : l.schema = .modern) (h : IsLibrary text.toList cs)
    (hl : LaidOut text.toList) (s : Symbol) (overwrite : Bool) :
    if (∃ c ∈ cs, c.isSymbol s.name = true) ∧ overwrite = false then
      l.insert s.name (symbolEntry s) text overwrite =
        .error (.alreadyExists (s!"symbol '{s.name}' in " ++ l.path))
    else ∃ new replaced, l.insert s.name (symbolEntry s) text overwrite = .ok (new, replaced) ∧
      IsLibrary new.toList (putChild s.name (symbol s).datum cs) := by
  have hcontents := l.contents_of_isLibrary h
  have hfound := splitFrom?_isSome_iff (n := s.name) h hl
  cases hsplit : (ofName .modern s.name).splitFrom? true text.toList with
  | some found =>
    obtain ⟨b, m, a⟩ := found
    rw [hsplit] at hfound
    have hsplit' : (ofName l.schema s.name).split? text =
        some (String.ofList b, String.ofList m, String.ofList a) := by
      rw [hschema, split?, hsplit]
      rfl
    cases overwrite with
    | false =>
      rw [if_pos ⟨hfound.mp rfl, rfl⟩]
      unfold insert
      simp [hcontents, hsplit']
    | true =>
      rw [if_neg (by simp)]
      refine ⟨String.ofList b ++ symbolEntry s ++ String.ofList a, true, ?_, ?_⟩
      · unfold insert
        simp [hcontents, hsplit']
      · simpa using isLibrary_replace h hl hsplit
  | none =>
    rw [hsplit] at hfound
    have hnot : ¬ ∃ c ∈ cs, c.isSymbol s.name = true :=
      fun hexists => Bool.false_ne_true (hfound.mpr hexists)
    have hother : ∀ c ∈ cs, c.isSymbol s.name = false :=
      fun c hc => Bool.eq_false_iff.mpr fun hn => hnot ⟨c, hc, hn⟩
    have hsplit' : (ofName l.schema s.name).split? text = none := by
      rw [hschema, split?, hsplit]
      rfl
    obtain ⟨xs, back, hcut, hnew⟩ := isLibrary_append h hl s
    have hcut' : cutLast l.footer.toList text.toList = some (xs, back) := by
      rw [footer, hschema]
      exact hcut
    rw [if_neg fun hexists => hnot hexists.1, putChild_of_not_mem hother]
    refine ⟨String.ofList xs ++ symbolEntry s ++ String.ofList back, false, ?_, ?_⟩
    · unfold insert
      simp [hcontents, hsplit', hcut']
    · simpa using hnew

/-- **In a library laid out by lines, a symbol is found just if it is a child, and storing one puts a
child.** All other children stay as they are, and where there was at most one symbol of the name there
is just the one stored. -/
theorem exec_children (hschema : l.schema = .modern) {t : FileTree}
    (hread : t.read l.path = .ok (some text)) (h : IsLibrary text.toList cs)
    (hl : LaidOut text.toList) :
    (∀ n, (l.contains n).exec t = (.ok (cs.any (·.isSymbol n)), t)) ∧
    ∀ (s : Symbol) (overwrite : Bool) (t' : FileTree),
      (l.write s.name (s.render .modern) overwrite).exec t = (.ok (), t') →
      ∃ new cs', t'.read l.path = .ok (some new) ∧ IsLibrary new.toList cs' ∧
        cs' = putChild s.name (symbol s).datum cs ∧
        cs'.filter (fun c => !c.isSymbol s.name) = cs.filter (fun c => !c.isSymbol s.name) ∧
        ((cs.filter (·.isSymbol s.name)).length ≤ 1 →
          cs'.filter (·.isSymbol s.name) = [(symbol s).datum]) := by
  constructor
  · intro n
    have hfound := splitFrom?_isSome_iff (n := n) h hl
    rw [exec_contains, hread, hschema]
    simp only [Except.map, Option.getD_some, split?, Option.isSome_map]
    rw [Bool.eq_iff_iff.mpr (hfound.trans List.any_eq_true.symm)]
  · intro s overwrite t' hwrite
    have hinsert := l.insert_children hschema h hl s overwrite
    rw [exec_write, hread] at hwrite
    have hrender : s.render .modern = symbolEntry s := rfl
    simp only [Option.getD_some, hrender] at hwrite
    split at hinsert
    · simp only [hinsert] at hwrite
      cases hwrite
    · obtain ⟨new, replaced, hok, hnew⟩ := hinsert
      simp only [hok] at hwrite
      exact ⟨new, _, FileTree.read_of_save hwrite, hnew, rfl, filter_not_putChild (isSymbol_symbol s),
        filter_putChild (isSymbol_symbol s)⟩

/-- A symbol stored over the first of two. -/
theorem exec_children_resistors :
    let resistor (name : String) (part : Nat) : Symbol := ⟨name, "R", part, [], []⟩
    let l := parts .modern
    let text := String.ofList (libraryText [resistor "R1" 1, resistor "R2" 1])
    ∃ t t' new cs, t.read l.path = .ok (some text) ∧ (l.contains "R2").exec t = (.ok true, t) ∧
      (l.contains "R").exec t = (.ok false, t) ∧
      (l.write "R1" ((resistor "R1" 2).render .modern) true).exec t = (.ok (), t') ∧
      t'.read l.path = .ok (some new) ∧ IsLibrary new.toList cs ∧
      cs.filter (·.isSymbol "R1") = [(symbol (resistor "R1" 2)).datum] := by
  intro resistor l text
  have hfree : ∀ s ∈ [resistor "R1" 1, resistor "R2" 1], ∀ x ∈ s.texts, '\n' ∉ x.toList := by
    decide +kernel
  have htext : text.toList = libraryText [resistor "R1" 1, resistor "R2" 1] := String.toList_ofList
  have hlibrary := isLibrary_libraryText [resistor "R1" 1, resistor "R2" 1]
  have hlaid : LaidOut text.toList := htext ▸ laidOut_libraryText hfree
  rw [← htext] at hlibrary
  obtain ⟨t, -, hread, hsave⟩ := (canSave_parts .modern).save text
  obtain ⟨hcontains, hwrite⟩ := l.exec_children rfl hread hlibrary hlaid
  have hinsert := l.insert_children rfl hlibrary hlaid (resistor "R1" 2) true
  rw [if_neg (by simp)] at hinsert
  obtain ⟨new, replaced, hok, -⟩ := hinsert
  obtain ⟨t', hdone, -, -⟩ := exec_write_of_insert l hread hok hsave
  obtain ⟨new', cs, hread', hlibrary', -, -, hone⟩ := hwrite (resistor "R1" 2) true t' hdone
  refine ⟨t, t', new', cs, hread, (hcontains "R2").trans ?_, (hcontains "R").trans ?_, hdone, hread',
    hlibrary', hone ?_⟩
  · exact congrArg (fun found => (Except.ok found, t)) (by decide +kernel)
  · exact congrArg (fun found => (Except.ok found, t)) (by decide +kernel)
  · decide +kernel

/-- A library with a symbol that is indented. -/
def indentedLibrary : String := "(kicad_symbol_lib\n  (symbol \"R1\" (in_bom yes))\n)\n"

/-- A library with two symbols of one name. -/
def doubledLibrary : String :=
  "(kicad_symbol_lib\n(symbol \"R1\" (in_bom yes)\n)\n(symbol \"R1\" (in_bom no)\n)\n)\n"

/-- A symbol of a name with one mark. -/
def marked (name mark : String) : Datum :=
  .list [.word symbolHead, .text name.toList, .list [.word "in_bom".toList, .word mark.toList]]

/-- The second of them once the first is stored over. -/
theorem isLibrary_doubled (s : Symbol) :
    IsLibrary ("(kicad_symbol_lib\n" ++ symbolEntry s ++ "(symbol \"R1\" (in_bom no)\n)\n)\n").toList
      [(symbol s).datum, marked "R1" "no"] := by
  have hfront : Amid "(kicad_symbol_lib\n".toList [.word libraryHead] :=
    ⟨[], "kicad_symbol_lib\n".toList, by decide, reads_nil, by unfold Reads; cbv⟩
  have hsecond : Reads "(symbol \"R1\" (in_bom no)\n)\n".toList [marked "R1" "no"] := by
    unfold Reads
    cbv
  have hback : Reads ['\n'] [] := (reads_cons_iff rfl).mpr reads_nil
  have hnew : IsLibrary _ [(symbol s).datum, marked "R1" "no"] :=
    hfront.isLibrary (reads_symbolEntry_append s hsecond) (apart_symbolEntry_append s _) hback rfl
  have hend : "(symbol \"R1\" (in_bom no)\n)\n)\n".toList =
      "(symbol \"R1\" (in_bom no)\n)\n".toList ++ [')', '\n'] := by decide
  rw [String.toList_append, String.toList_append, hend]
  simpa only [List.append_assoc] using hnew

/-- A child that does not begin a line is not found, and of two symbols of one name only the first is
stored over. -/
theorem contains_misses_indented :
    (IsLibrary indentedLibrary.toList [marked "R1" "yes"] ∧ (marked "R1" "yes").isSymbol "R1" = true ∧
      ∃ t, t.read (parts .modern).path = .ok (some indentedLibrary) ∧
        ((parts .modern).contains "R1").exec t = (.ok false, t)) ∧
    (IsLibrary doubledLibrary.toList [marked "R1" "yes", marked "R1" "no"] ∧
      ∃ t t' new, t.read (parts .modern).path = .ok (some doubledLibrary) ∧
        ((parts .modern).write "R1" (Symbol.render ⟨"R1", "R", 1, [], []⟩ .modern) true).exec t =
          (.ok (), t') ∧
        t'.read (parts .modern).path = .ok (some new) ∧
        IsLibrary new.toList [(symbol ⟨"R1", "R", 1, [], []⟩).datum, marked "R1" "no"]) := by
  constructor
  · have hlibrary : IsLibrary indentedLibrary.toList [marked "R1" "yes"] := by
      unfold IsLibrary Reads
      cbv
    refine ⟨hlibrary, by decide +kernel, ?_⟩
    obtain ⟨t, -, hread, -⟩ := (canSave_parts .modern).save indentedLibrary
    refine ⟨t, hread, ?_⟩
    rw [exec_contains, hread]
    exact congrArg (fun found => (Except.ok found, t)) (by decide +kernel)
  · have hlibrary : IsLibrary doubledLibrary.toList [marked "R1" "yes", marked "R1" "no"] := by
      unfold IsLibrary Reads
      cbv
    refine ⟨hlibrary, ?_⟩
    obtain ⟨t, -, hread, hsave⟩ := (canSave_parts .modern).save doubledLibrary
    have hinsert : (parts .modern).insert "R1" (symbolEntry ⟨"R1", "R", 1, [], []⟩)
        doubledLibrary true = .ok ("(kicad_symbol_lib\n" ++ symbolEntry ⟨"R1", "R", 1, [], []⟩ ++
          "(symbol \"R1\" (in_bom no)\n)\n)\n", true) := by decide +kernel
    obtain ⟨t', hdone, hread', -⟩ := exec_write_of_insert (parts .modern) hread hinsert hsave
    exact ⟨t, t', _, hread, hdone, hread', isLibrary_doubled _⟩

end EdaParts.SymbolLibrary
