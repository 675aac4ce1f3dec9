import EdaParts.Proofs.Modern.Children
import EdaParts.Proofs.Modern.Entry

/-!
# Libraries laid out by lines

Entries are looked for by lines, so what a library says is found in its text where the lines show it.

* `LaidOut` : the lines of a text show where its symbols begin and end;
* `LaidOut.opens`, `LaidOut.opened` : the lines that begin like a symbol are the symbols among the
  children;
* `laidOut_libraryText` : so it is in a library that is written entry by entry.
-/

namespace EdaParts.Modern

open Text

/-- The beginning of an entry, without its parenthesis. -/
def heading (name : String) : List Char := symbolHead ++ ' ' :: ((quote name).toList ++ [' '])

/-- What stands in the parentheses of an entry: the heading comes first, and the closing parenthesis
begins a line as none before it does. -/
def EntryLines (name : String) (inner : List Char) : Prop :=
  ∃ body, inner = heading name ++ body ∧ beginsLine false body = true ∧ ¬ ['\n', ')'] <:+: body

/-- **The lines of a library show its symbols.** A child that is a symbol begins a line and has the
lines of an entry; no other line begins like an entry; and the last parenthesis ends a line. -/
structure LaidOut (text : List Char) : Prop where
  symbols : ∀ xs inner zs items n rest, text = xs ++ '(' :: (inner ++ ')' :: zs) → Amid xs items →
    Reads inner (.word symbolHead :: .text (String.toList n) :: rest) →
    beginsLine true xs = true ∧ EntryLines n inner
  openings : ∀ xs ys n, text = xs ++ (opening n ++ ys) → beginsLine true xs = true →
    ∃ items, Amid xs items
  closed : ∃ xs ys, text = xs ++ ')' :: '\n' :: ys ∧ ')' ∉ ys

section
variable {text xs ys inner body : List Char} {cs items as bs ds : List Datum} {n : String} {fresh : Bool}

theorem opening_eq_heading (name : String) : opening name = '(' :: heading name := by
  have hsymbol : "(symbol ".toList = '(' :: (symbolHead ++ [' ']) := by decide
  rw [opening_eq, hsymbol, heading]
  simp only [List.cons_append, List.append_assoc, List.nil_append]

theorem reads_heading_append_iff (n : String) : Reads (heading n ++ body) ds ↔
    ∃ rest, Reads body rest ∧ ds = .word symbolHead :: .text n.toList :: rest := by
  have hsymbol : Reads symbolHead [.word symbolHead] := rfl
  have hassoc : heading n ++ body =
      symbolHead ++ ' ' :: ((quote n).toList ++ ' ' :: body) := by
    unfold heading
    simp only [List.cons_append, List.append_assoc, List.nil_append]
  rw [hassoc, reads_append_iff hsymbol rfl]
  simp only [reads_cons_iff (c := ' ') rfl, reads_append_iff (reads_quote n) (c := ' ') rfl]
  constructor
  · rintro ⟨_, ⟨rest, h, rfl⟩, rfl⟩
    exact ⟨rest, h, rfl⟩
  · rintro ⟨rest, h, rfl⟩
    exact ⟨_, ⟨rest, h, rfl⟩, rfl⟩

theorem reads_heading (n : String) :
    Reads (heading n) [.word symbolHead, .text n.toList] := by
  rw [← List.append_nil (heading n)]
  exact (reads_heading_append_iff n).mpr ⟨[], reads_nil, rfl⟩

/-! ## Entries in a library laid out by lines -/

/-- **A line that begins like an entry begins a child** that is a symbol of that name. The child ends
with the next line that begins with a closing parenthesis. -/
theorem LaidOut.opens (h : IsLibrary text cs) (hl : LaidOut text)
    (htext : text = xs ++ (opening n ++ ys)) (hxs : beginsLine true xs = true) :
    ∃ items body zs rest post back, Amid xs items ∧ ys = body ++ ')' :: (zs ++ ')' :: back) ∧
      beginsLine false body = true ∧ ¬ ['\n', ')'] <:+: body ∧ Reads zs post ∧ Reads back [] ∧
      .word libraryHead :: cs =
        items ++ .list (.word symbolHead :: .text n.toList :: rest) :: post := by
  obtain ⟨items, hitems⟩ := hl.openings xs ys n htext hxs
  rw [opening_eq_heading, List.cons_append] at htext
  have hsplit := h
  rw [htext] at hsplit
  obtain ⟨inner, zs, q, post, back, hys, hinner, hzs, hback, hds⟩ := hsplit.splits hitems
  obtain ⟨body, rfl, hbody⟩ := (reads_heading n).exists_append hinner hys
  obtain ⟨rest, -, rfl⟩ := (reads_heading_append_iff n).mp hinner
  obtain ⟨-, body', hbody', hfresh, hfree⟩ :=
    hl.symbols xs (heading n ++ body) (zs ++ ')' :: back) items n rest
      (by rw [htext, hbody]; simp) hitems hinner
  rw [List.append_cancel_left_eq] at hbody'
  subst hbody'
  exact ⟨items, body, zs, rest, post, back, hitems, hbody, hfresh, hfree, hzs, hback, hds⟩

/-- **A symbol among the children** begins a line like an entry of its name. -/
theorem LaidOut.opened (h : IsLibrary text cs) (hl : LaidOut text) {c : Datum} (hc : c ∈ cs)
    (hn : c.isSymbol n = true) : ∃ xs body ys, text = xs ++ (opening n ++ (body ++ ')' :: ys)) ∧
      beginsLine true xs = true ∧ beginsLine false body = true := by
  obtain ⟨rest, rfl⟩ := Datum.isSymbol_iff.mp hn
  obtain ⟨front, inside, back, rfl, hfront, hinside, -⟩ := isLibrary_iff.mp h
  obtain ⟨ys, zs, inner, as, bs, rfl, hys, hinner, -, -⟩ :=
    hinside.origin (List.mem_cons_of_mem _ hc)
  have hamid : Amid (front ++ '(' :: ys) as := ⟨front, ys, rfl, hfront, hys⟩
  obtain ⟨hxs, body, rfl, hfresh, -⟩ :=
    hl.symbols (front ++ '(' :: ys) inner (zs ++ ')' :: back) as n rest (by simp) hamid hinner
  exact ⟨front ++ '(' :: ys, body, zs ++ ')' :: back, by simp [opening_eq_heading], hxs, hfresh⟩

/-! ## Texts whose symbols have the lines of entries -/

/-- The symbols among the items of a text begin lines and have the lines of entries. -/
def Shows (fresh : Bool) (xs : List Char) : Prop :=
  ∀ ys inner zs before n rest, xs = ys ++ '(' :: (inner ++ ')' :: zs) → Reads ys before →
    Reads inner (.word symbolHead :: .text (String.toList n) :: rest) →
    beginsLine fresh ys = true ∧ EntryLines n inner

theorem shows_of_reads (h : Reads xs ds) (hds : ∀ n, ∀ d ∈ ds, d.isSymbol n = false) :
    Shows fresh xs := by
  rintro ys inner zs before n rest rfl hys hinner
  obtain ⟨ds', hlist, rfl⟩ := (reads_append_iff hys rfl).mp h
  obtain ⟨bs, -, rfl⟩ := (reads_list_iff hinner).mp hlist
  have hnot := hds n _ (List.mem_append_right _ List.mem_cons_self)
  rw [Datum.isSymbol_iff.mpr ⟨rest, rfl⟩] at hnot
  cases hnot

theorem Shows.append (hx : Shows fresh xs) (hy : Shows (beginsLine fresh xs) ys) (has : Reads xs as)
    (hapart : Apart ys) : Shows fresh (xs ++ ys) := by
  intro us inner zs before n rest h hus hinner
  rcases List.append_eq_append_iff.mp h with ⟨ws, rfl, hws⟩ | ⟨ws, rfl, hws⟩
  · -- The list begins in the second text.
    have hbefore : ∃ bs, Reads ws bs := by
      cases ws with
      | nil => exact ⟨[], reads_nil⟩
      | cons c ws =>
        obtain ⟨bs, hbs, -⟩ := (reads_append_iff has (hapart c (by rw [hws]; rfl))).mp hus
        exact ⟨bs, hbs⟩
    obtain ⟨bs, hbs⟩ := hbefore
    rw [beginsLine_append]
    exact hy ws inner zs bs n rest hws hbs hinner
  · cases ws with
    | nil =>
      have hfirst := hy [] inner zs [] n rest hws.symm reads_nil hinner
      rwa [List.append_nil, beginsLine_nil] at hfirst
    | cons c ws =>
      rw [List.cons_append] at hws
      obtain ⟨rfl, hrest⟩ := List.cons.inj hws
      obtain ⟨inner', zs', q, bs, rfl, hinner', -, -⟩ := has.opened hus
      rw [List.append_assoc, List.cons_append] at hrest
      obtain ⟨rfl, -⟩ := hinner.closed_unique hinner' hrest
      exact hx us inner zs' before n rest rfl hus hinner

/-- A list whose inside shows its symbols is laid out by lines. -/
theorem laidOut_of_shows (hinside : Shows false inner) (hreads : Reads inner ds)
    (hopenings : ∀ xs ys n, '(' :: inner ++ [')', '\n'] = xs ++ (opening n ++ ys) →
      beginsLine true xs = true → ∃ items, Amid xs items) :
    LaidOut ('(' :: inner ++ [')', '\n']) := by
  refine ⟨fun xs inner' zs items n rest h hxs hinner => ?_, hopenings, '(' :: inner, [], rfl, by simp⟩
  obtain ⟨front, before, rfl, hfront, hbefore⟩ := hxs
  cases front with
  | cons c front =>
    rw [List.cons_append, List.cons_append, List.cons_append] at h
    obtain ⟨rfl, -⟩ := List.cons.inj h
    have hblank := reads_nil_iff.mp hfront _ List.mem_cons_self
    cases hblank
  | nil =>
    have h' : before ++ '(' :: (inner' ++ ')' :: zs) = inner ++ ')' :: ['\n'] :=
      (List.cons.inj h.symm).2
    obtain ⟨ws, rfl, hws⟩ := hbefore.exists_append hreads h'
    cases ws with
    | nil => cases hws
    | cons c ws =>
      rw [List.cons_append] at hws
      obtain ⟨rfl, hrest⟩ := List.cons.inj hws
      obtain ⟨inner'', zs', q, bs, rfl, hinner'', -, -⟩ := hreads.opened hbefore
      rw [List.append_assoc, List.cons_append] at hrest
      obtain ⟨rfl, -⟩ := hinner.closed_unique hinner'' hrest
      exact hinside before inner' zs' items n rest rfl hbefore hinner

end

/-! ## Libraries written entry by entry -/

def entriesText (ss : List Symbol) : List Char := ss.flatMap fun s => (symbolEntry s).toList

def libraryText (ss : List Symbol) : List Char :=
  libraryHeader.toList ++ (entriesText ss ++ libraryFooter.toList)

/-- The header after its parenthesis. -/
def headerText : List Char :=
  libraryHead ++
    ' ' :: ((version.print 0).toList ++ ' ' :: ((generator.print 0).toList ++ ['\n']))

section
variable {ss : List Symbol} {s : Symbol} {xs ys : List Char}

theorem reads_symbolEntry_append (s : Symbol) {ds : List Datum} (h : Reads ys ds) :
    Reads ((symbolEntry s).toList ++ ys) ((symbol s).datum :: ds) := by
  have hprint : Reads ((symbol s).print 0).toList [(symbol s).datum] :=
    reads_print 0 (wellFormed_symbol s)
  have hassoc : (symbolEntry s).toList ++ ys = ((symbol s).print 0).toList ++ '\n' :: ys := by
    simp [symbolEntry]
  rw [hassoc]
  exact (reads_append_iff hprint rfl).mpr ⟨ds, (reads_cons_iff rfl).mpr h, rfl⟩

theorem toList_symbolEntry_eq_heading (s : Symbol) : (symbolEntry s).toList =
    '(' :: ((heading s.name ++ (bodyText s ++ ['\n'])) ++ ')' :: ['\n']) := by
  rw [toList_symbolEntry, opening_eq_heading]
  simp

theorem apart_symbolEntry_append (s : Symbol) (ys : List Char) :
    Apart ((symbolEntry s).toList ++ ys) := by
  rw [toList_symbolEntry_eq_heading]
  exact apart_cons rfl

theorem entriesText_cons (s : Symbol) (ss : List Symbol) :
    entriesText (s :: ss) = (symbolEntry s).toList ++ entriesText ss := List.flatMap_cons

theorem reads_entriesText (ss : List Symbol) :
    Reads (entriesText ss) (ss.map fun s => (symbol s).datum) := by
  induction ss with
  | nil => exact reads_nil
  | cons s ss ih =>
    rw [entriesText_cons, List.map_cons]
    exact reads_symbolEntry_append s ih

theorem apart_entriesText (ss : List Symbol) : Apart (entriesText ss) := by
  cases ss with
  | nil => exact apart_nil
  | cons s ss =>
    rw [entriesText_cons]
    exact apart_symbolEntry_append s _

theorem shows_symbolEntry (hs : s.LineFree) : Shows true (symbolEntry s).toList := by
  intro ys inner zs before n rest h hys hinner
  have hentry := reads_symbolEntry_append s reads_nil
  rw [List.append_nil, h] at hentry
  obtain ⟨ds', hlist, hds⟩ := (reads_append_iff hys rfl).mp hentry
  obtain ⟨bs, hzs, rfl⟩ := (reads_list_iff hinner).mp hlist
  have hlen := congrArg List.length hds
  simp only [List.length_append, List.length_cons, List.length_nil] at hlen
  obtain rfl : before = [] := List.length_eq_zero_iff.mp (by omega)
  obtain rfl : bs = [] := List.length_eq_zero_iff.mp (by omega)
  rw [toList_symbolEntry_eq_heading] at h
  cases ys with
  | cons c ys =>
    obtain ⟨rfl, -⟩ := List.cons.inj h
    have hblank := reads_nil_iff.mp hys _ List.mem_cons_self
    cases hblank
  | nil =>
    have hlast : ')' ∉ zs := fun hmem => Bool.false_ne_true (reads_nil_iff.mp hzs _ hmem)
    obtain ⟨rfl, -⟩ := eq_of_append_cons (by decide) hlast (List.cons.inj h).2
    obtain ⟨rest', -, hname⟩ := (reads_heading_append_iff s.name).mp hinner
    simp only [List.cons.injEq, Datum.text.injEq, String.toList_inj, true_and] at hname
    obtain ⟨rfl, rfl⟩ := hname
    refine ⟨rfl, bodyText s ++ ['\n'], rfl, by rw [beginsLine_append]; rfl, ?_⟩
    rw [parenthesis_infix_body_iff (Or.inr rfl)]
    rintro ⟨x, hx, hin⟩
    exact hs.of_mem_named hx (hin.subset (by decide))

theorem shows_entriesText (hss : ∀ s ∈ ss, s.LineFree) : Shows true (entriesText ss) := by
  induction ss with
  | nil => exact shows_of_reads reads_nil (by simp)
  | cons s ss ih =>
    obtain ⟨hs, hss⟩ := List.forall_mem_cons.mp hss
    have hentry := reads_symbolEntry_append s reads_nil
    rw [List.append_nil] at hentry
    rw [entriesText_cons]
    refine Shows.append (shows_symbolEntry hs) ?_ hentry (apart_entriesText ss)
    rw [beginsLine_symbolEntry]
    exact ih hss

/-- The lines after the header that begin with an opening parenthesis are those of entries. -/
theorem exists_entriesText (hss : ∀ s ∈ ss, s.LineFree)
    (h : entriesText ss ++ libraryFooter.toList = xs ++ '(' :: ys) (hxs : beginsLine true xs = true) :
    ∃ pre, xs = entriesText pre := by
  induction ss generalizing xs with
  | nil =>
    have hmem : '(' ∈ entriesText [] ++ libraryFooter.toList := by
      rw [h]
      simp
    exact absurd hmem (by decide)
  | cons s ss ih =>
    obtain ⟨hs, hss⟩ := List.forall_mem_cons.mp hss
    rw [entriesText_cons, List.append_assoc] at h
    rcases List.append_eq_append_iff.mp h with ⟨zs, hcut, hzs⟩ | ⟨zs, hzs, hrest⟩
    · rw [hcut, beginsLine_append, beginsLine_symbolEntry] at hxs
      obtain ⟨pre, hpre⟩ := ih hss hzs hxs
      exact ⟨s :: pre, by rw [hcut, hpre, entriesText_cons]⟩
    · cases zs with
      | nil => exact ⟨[s], by rw [entriesText, List.flatMap_singleton, hzs, List.append_nil]⟩
      | cons c zs =>
        obtain ⟨rfl, -⟩ := List.cons.inj hrest
        rcases beginsLine_eq_true_iff.mp hxs with ⟨rfl, -⟩ | ⟨ws, rfl⟩
        · exact ⟨[], rfl⟩
        · have hin : ['\n', '('] <:+: (symbolEntry s).toList := ⟨ws, zs, by rw [hzs]; simp⟩
          exact absurd hin (not_infix_parenthesis hs)

theorem toList_libraryHeader : libraryHeader.toList = '(' :: headerText := by
  have hhead : "(kicad_symbol_lib ".toList = '(' :: (libraryHead ++ [' ']) := by decide
  unfold libraryHeader headerText
  simp only [String.toList_append, hhead]
  simp

theorem heading_append_ne (n : String) (xs ys : List Char) : heading n ++ xs ≠ headerText ++ ys := by
  have hsymbol : symbolHead.head? = some 's' := by decide
  have hlibrary : headerText.head? = some 'k' := by decide
  have hentry : (heading n ++ xs).head? = some 's' := by
    rw [heading, List.append_assoc, List.head?_append, hsymbol]
    rfl
  intro h
  rw [h, List.head?_append, hlibrary] at hentry
  cases hentry

theorem libraryText_eq (ss : List Symbol) :
    libraryText ss = '(' :: (headerText ++ entriesText ss) ++ [')', '\n'] := by
  unfold libraryText
  rw [toList_libraryHeader]
  simp [libraryFooter]

theorem reads_headerText : Reads headerText
    [.word libraryHead, version.datum, generator.datum] := by
  have hword : Reads libraryHead [.word libraryHead] :=
    reads_word (by decide : IsAtom "kicad_symbol_lib")
  have hversion : Reads (version.print 0).toList [version.datum] :=
    reads_print 0 ⟨by decide, wellFormed_natural _, trivial⟩
  have hgenerator : Reads (generator.print 0).toList [generator.datum] :=
    reads_print 0 ⟨by decide, (by decide : IsAtom "easyeda_kiconv"), trivial⟩
  have hend : Reads ['\n'] [] := (reads_cons_iff rfl).mpr reads_nil
  have hrest := (reads_cons_iff (c := ' ') rfl).mpr (hgenerator.append hend (apart_cons rfl))
  have hitems := (reads_cons_iff (c := ' ') rfl).mpr (hversion.append hrest (apart_cons rfl))
  exact hword.append hitems (apart_cons rfl)

theorem shows_headerText : Shows false headerText := by
  refine shows_of_reads reads_headerText fun n d hd => ?_
  simp only [List.mem_cons, List.not_mem_nil, or_false] at hd
  rcases hd with rfl | rfl | rfl <;> rfl

theorem reads_inside (ss : List Symbol) : Reads (headerText ++ entriesText ss)
    (.word libraryHead :: version.datum :: generator.datum ::
      ss.map fun s => (symbol s).datum) :=
  reads_headerText.append (reads_entriesText ss) (apart_entriesText ss)

/-- **A library that is written entry by entry** says its symbols. -/
theorem isLibrary_libraryText (ss : List Symbol) : IsLibrary (libraryText ss)
    (version.datum :: generator.datum :: ss.map fun s => (symbol s).datum) := by
  have hend : Reads ['\n'] [] := (reads_cons_iff rfl).mpr reads_nil
  exact isLibrary_iff.mpr ⟨[], _, ['\n'], by rw [libraryText_eq]; simp, reads_nil, reads_inside ss, hend⟩

/-- **A library that is written entry by entry** is laid out by lines. -/
theorem laidOut_libraryText (hss : ∀ s ∈ ss, s.LineFree) : LaidOut (libraryText ss) := by
  have hbegins : beginsLine false headerText = true := by decide
  have hshows : Shows false (headerText ++ entriesText ss) :=
    shows_headerText.append (hbegins ▸ shows_entriesText hss) reads_headerText (apart_entriesText ss)
  rw [libraryText_eq]
  refine laidOut_of_shows hshows (reads_inside ss) fun xs ys n h hxs => ?_
  have htext : libraryHeader.toList ++ (entriesText ss ++ libraryFooter.toList) =
      xs ++ '(' :: (heading n ++ ys) := by
    rw [← List.cons_append, ← opening_eq_heading, ← h, toList_libraryHeader]
    simp [libraryFooter]
  have hamid : ∀ pre, Amid (libraryHeader.toList ++ entriesText pre) _ := fun pre =>
    ⟨[], headerText ++ entriesText pre, by rw [toList_libraryHeader]; rfl, reads_nil, reads_inside pre⟩
  rcases List.append_eq_append_iff.mp htext with ⟨zs, rfl, hzs⟩ | ⟨zs, hzs, hrest⟩
  · have hfresh : beginsLine true libraryHeader.toList = true := by
      rw [toList_libraryHeader, beginsLine_cons, decide_eq_false (by decide)]
      exact hbegins
    rw [beginsLine_append, hfresh] at hxs
    obtain ⟨pre, rfl⟩ := exists_entriesText hss hzs hxs
    exact ⟨_, hamid pre⟩
  · cases zs with
    | nil =>
      have hpre := hamid []
      rw [hzs, show entriesText [] = [] from rfl, List.append_nil, List.append_nil] at hpre
      exact ⟨_, hpre⟩
    | cons c zs =>
      rw [List.cons_append] at hrest
      obtain ⟨rfl, hzs'⟩ := List.cons.inj hrest
      rcases beginsLine_eq_true_iff.mp hxs with ⟨rfl, -⟩ | ⟨ws, rfl⟩
      · -- The first line begins with another word.
        have hzs : headerText = zs := (List.cons.inj (toList_libraryHeader.symm.trans hzs)).2
        rw [← hzs] at hzs'
        exact absurd hzs' (heading_append_ne n ys _)
      · have hin : ['\n', '('] <:+: libraryHeader.toList := ⟨ws, zs, by rw [hzs]; simp⟩
        exact absurd hin (by decide)

end

end EdaParts.Modern
