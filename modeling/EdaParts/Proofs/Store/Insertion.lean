import EdaParts.Proofs.Legacy.Entry
import EdaParts.Proofs.Modern.Entry
import EdaParts.Store.Library

/-!
# Libraries as lists of symbols

A library that holds symbols is a text: the header, an entry for each of them, and the footer. The
insertion of an entry is read off such texts as what it does to the list.

* `textOf` : the text of a list of symbols;
* `Holds` : each symbol of a list prints as its entry, under a name of its own;
* `put` : a list with one symbol stored, in the place of the one of its name or else at the end;
* `insert_textOf` : storing an entry in the text of a list gives the text of the list it is put into;
* `split?_textOf` : an entry of a name is found just if a symbol of the list has it.
-/

namespace EdaParts.SymbolLibrary

open Text EntryPattern

variable (l : SymbolLibrary) {ss pre post : List Symbol} {r s : Symbol} {n : String}

def entriesOf (ss : List Symbol) : List Char :=
  ss.flatMap fun s => (s.render l.schema).toList

def textOf (ss : List Symbol) : String :=
  l.header ++ String.join (ss.map (·.render l.schema)) ++ l.footer

/-- The list with a symbol in the place of the one of its name, or at the end if there is none. -/
def put (ss : List Symbol) (s : Symbol) : List Symbol :=
  if s.name ∈ ss.map Symbol.name then ss.map fun r => if r.name = s.name then s else r
  else ss ++ [s]

/-- Each symbol prints as its entry, and no other one has its name. -/
structure Holds (ss : List Symbol) : Prop where
  entry : ∀ s ∈ ss, IsEntry l.schema s.name (s.render l.schema).toList
  nodup : (ss.map Symbol.name).Nodup

theorem toList_textOf (ss : List Symbol) :
    (l.textOf ss).toList = l.header.toList ++ (l.entriesOf ss ++ l.footer.toList) := by
  unfold textOf entriesOf
  rw [String.toList_append, String.toList_append, String.toList_join, List.flatMap_map,
    List.append_assoc]

theorem entriesOf_append (ss rs : List Symbol) :
    l.entriesOf (ss ++ rs) = l.entriesOf ss ++ l.entriesOf rs := List.flatMap_append

/-! ## Header and footer -/

theorem isEntry_render (hs : s.LineFree) (hname : ' ' ∉ s.name.toList) :
    IsEntry l.schema s.name (s.render l.schema).toList := by
  cases l.schema with
  | legacy => exact Legacy.isEntry_symbolEntry hs hname
  | modern => exact Modern.isEntry_symbolEntry hs

theorem beginsLine_header : beginsLine true l.header.toList = true := by
  unfold header
  cases l.schema <;> decide

theorem passes_header (n : String) (ys : List Char) :
    Passes (ofName l.schema n).Opens true l.header.toList ys := by
  unfold header
  cases l.schema with
  | legacy => exact Legacy.passes_libraryHeader n ys
  | modern => exact Modern.passes_libraryHeader n ys

theorem noLine_footer (n : String) : NoLine (ofName l.schema n).Opens true l.footer.toList := by
  unfold footer
  cases l.schema with
  | legacy => exact Legacy.noLine_libraryFooter n
  | modern => exact Modern.noLine_libraryFooter n

/-- The last footer of a text that ends with one is that one. -/
theorem cutLast_footer (xs : List Char) :
    cutLast l.footer.toList (xs ++ l.footer.toList) = some (xs, l.footer.toList) := by
  refine cutLast_append (List.prefix_refl _) ?_ ?_
  · unfold footer
    cases l.schema <;> decide
  · unfold footer
    cases l.schema <;> decide

theorem contents_textOf (ss : List Symbol) : l.contents (l.textOf ss) = l.textOf ss := by
  have hheader : isBlankText l.header = false := by
    unfold header
    cases l.schema <;> decide
  have htext : isBlankText (l.textOf ss) = false := by
    unfold isBlankText at hheader ⊢
    rw [toList_textOf, List.all_append, hheader, Bool.false_and]
  rw [contents, htext]
  rfl

/-- No text at all is a library without entries. -/
theorem contents_empty : l.contents "" = l.textOf [] := by
  simp [contents, textOf, isBlankText]

/-- Storing reads no more of a text than what it contains. -/
theorem insert_congr {name entry text text' : String} {overwrite : Bool}
    (h : l.contents text = l.contents text') :
    l.insert name entry text overwrite = l.insert name entry text' overwrite := by
  unfold insert
  rw [h]

/-! ## Finding an entry -/

theorem beginsLine_entriesOf (h : ∀ s ∈ ss, IsEntry l.schema s.name (s.render l.schema).toList) :
    beginsLine true (l.entriesOf ss) = true := by
  induction ss with
  | nil => rfl
  | cons s ss ih =>
    obtain ⟨hs, hss⟩ := List.forall_mem_cons.mp h
    rw [entriesOf, List.flatMap_cons, beginsLine_append, hs.begins]
    exact ih hss

/-- The search for a name passes the entries of others. -/
theorem passes_entriesOf (h : ∀ s ∈ ss, IsEntry l.schema s.name (s.render l.schema).toList)
    (hn : n ∉ ss.map Symbol.name) (hblank : ' ' ∉ n.toList) (ys : List Char) :
    Passes (ofName l.schema n).Opens true (l.entriesOf ss) ys := by
  induction ss with
  | nil => exact Passes.nil
  | cons s ss ih =>
    obtain ⟨hs, hss⟩ := List.forall_mem_cons.mp h
    rw [List.map_cons, List.mem_cons, not_or] at hn
    rw [entriesOf, List.flatMap_cons]
    refine Passes.append (hs.passed n hn.1 hblank _) ?_
    rw [hs.begins]
    exact ih hss hn.2

theorem splitFrom?_textOf_of_not_mem (h : l.Holds ss) (hn : n ∉ ss.map Symbol.name)
    (hblank : ' ' ∉ n.toList) :
    (ofName l.schema n).splitFrom? true (l.textOf ss).toList = none := by
  have hentries := l.passes_entriesOf h.entry hn hblank l.footer.toList
  rw [toList_textOf]
  refine splitFrom?_eq_none ((l.passes_header n _).noLine ?_)
  rw [beginsLine_header]
  refine hentries.noLine ?_
  rw [l.beginsLine_entriesOf h.entry]
  exact l.noLine_footer n

theorem splitFrom?_textOf_nil (n : String) :
    (ofName l.schema n).splitFrom? true (l.textOf []).toList = none := by
  rw [toList_textOf]
  refine splitFrom?_eq_none ((l.passes_header n _).noLine ?_)
  rw [beginsLine_header]
  exact l.noLine_footer n

theorem splitFrom?_textOf_of_mem (h : l.Holds (pre ++ r :: post)) (hblank : ' ' ∉ r.name.toList) :
    (ofName l.schema r.name).splitFrom? true (l.textOf (pre ++ r :: post)).toList =
      some (l.header.toList ++ l.entriesOf pre, (r.render l.schema).toList,
        l.entriesOf post ++ l.footer.toList) := by
  have hpre : ∀ s ∈ pre, IsEntry l.schema s.name (s.render l.schema).toList :=
    fun s hs => h.entry s (List.mem_append_left _ hs)
  have hr : IsEntry l.schema r.name (r.render l.schema).toList :=
    h.entry r (List.mem_append_right _ List.mem_cons_self)
  have hname : r.name ∉ pre.map Symbol.name := by
    have hnodup := h.nodup
    rw [List.map_append, List.map_cons] at hnodup
    exact fun hmem => (List.nodup_append.mp hnodup).2.2 _ hmem _ List.mem_cons_self rfl
  have hentries := l.passes_entriesOf hpre hname hblank
    ((r.render l.schema).toList ++ (l.entriesOf post ++ l.footer.toList))
  have htext : (l.textOf (pre ++ r :: post)).toList = (l.header.toList ++ l.entriesOf pre) ++
      ((r.render l.schema).toList ++ (l.entriesOf post ++ l.footer.toList)) := by
    rw [toList_textOf, entriesOf_append]
    simp [entriesOf]
  rw [htext]
  refine splitFrom?_append ((l.passes_header _ _).append ?_) ?_ (hr.here _)
  · rw [beginsLine_header]
    exact hentries
  · rw [beginsLine_append, beginsLine_header]
    exact l.beginsLine_entriesOf hpre

theorem split?_empty (n : String) : (ofName l.schema n).split? "" = none := by
  have hbegins : beginsLine true l.footer.toList = true := by
    unfold footer
    cases l.schema <;> decide
  have hend : ¬ (ofName l.schema n).Opens [] := l.noLine_footer n _ [] (List.append_nil _).symm hbegins
  have hnone : (ofName l.schema n).splitFrom? true [] = none :=
    splitFrom?_eq_none (noLine_nil.mpr fun h => hend h.2)
  rw [split?, String.toList_empty, hnone]
  rfl

/-- **A library has an entry of a name** just if it holds a symbol of that name. -/
theorem split?_textOf (h : l.Holds ss) (hblank : ' ' ∉ n.toList) :
    ((ofName l.schema n).split? (l.textOf ss)).isSome ↔ n ∈ ss.map Symbol.name := by
  by_cases hn : n ∈ ss.map Symbol.name
  · obtain ⟨r, hr, rfl⟩ := List.mem_map.mp hn
    obtain ⟨pre, post, rfl⟩ := List.append_of_mem hr
    rw [split?, l.splitFrom?_textOf_of_mem h hblank]
    simp
  · rw [split?, l.splitFrom?_textOf_of_not_mem h hn hblank]
    simp [hn]

/-! ## Storing an entry -/

/-- A symbol takes the place of the only one of its name. -/
theorem put_of_split (h : l.Holds (pre ++ r :: post)) (hr : r.name = s.name) :
    put (pre ++ r :: post) s = pre ++ s :: post := by
  have hnodup := h.nodup
  rw [List.map_append, List.map_cons, hr] at hnodup
  obtain ⟨-, hcons, hdisjoint⟩ := List.nodup_append.mp hnodup
  have hother : ∀ ss : List Symbol, s.name ∉ ss.map Symbol.name →
      (ss.map fun r => if r.name = s.name then s else r) = ss := by
    intro ss hss
    refine (List.map_congr_left fun q hq => ?_).trans (List.map_id' ss)
    rw [if_neg fun hname : q.name = s.name => hss (hname ▸ List.mem_map_of_mem hq)]
  have hpre := hother pre fun hmem => hdisjoint _ hmem _ List.mem_cons_self rfl
  have hpost := hother post (List.nodup_cons.mp hcons).1
  rw [put, if_pos (by simp [hr]), List.map_append, List.map_cons, hpre, hpost, if_pos hr]

theorem put_of_not_mem (h : s.name ∉ ss.map Symbol.name) : put ss s = ss ++ [s] := if_neg h

theorem map_name_put : (put ss s).map Symbol.name =
    if s.name ∈ ss.map Symbol.name then ss.map Symbol.name else ss.map Symbol.name ++ [s.name] := by
  unfold put
  split
  · rw [List.map_map]
    refine List.map_congr_left fun r _ => ?_
    simp only [Function.comp_apply]
    split
    · next h => exact h.symm
    · rfl
  · rw [List.map_append]
    rfl

theorem Holds.put (h : l.Holds ss) (hs : IsEntry l.schema s.name (s.render l.schema).toList) :
    l.Holds (put ss s) := by
  refine ⟨fun r hr => ?_, ?_⟩
  · unfold SymbolLibrary.put at hr
    split at hr
    · obtain ⟨q, hq, rfl⟩ := List.mem_map.mp hr
      split
      · exact hs
      · exact h.entry q hq
    · rcases List.mem_append.mp hr with hr | hr
      · exact h.entry r hr
      · rw [List.mem_singleton.mp hr]
        exact hs
  · rw [map_name_put]
    split
    · exact h.nodup
    · next hnot =>
      refine List.nodup_append.mpr ⟨h.nodup, by simp, fun a ha b hb => ?_⟩
      rw [List.mem_singleton.mp hb]
      exact fun hab => hnot (hab ▸ ha)

/-- What is not found is stored before the footer. -/
theorem insert_textOf_of_split?_eq_none
    (h : (ofName l.schema s.name).split? (l.textOf ss) = none) (overwrite : Bool) :
    l.insert s.name (s.render l.schema) (l.textOf ss) overwrite = .ok (l.textOf (ss ++ [s]), false) := by
  have hcut : cutLast l.footer.toList (l.textOf ss).toList =
      some (l.header.toList ++ l.entriesOf ss, l.footer.toList) := by
    rw [toList_textOf, ← List.append_assoc]
    exact l.cutLast_footer _
  have htext : String.ofList (l.header.toList ++ l.entriesOf ss) ++ s.render l.schema ++
      String.ofList l.footer.toList = l.textOf (ss ++ [s]) := by
    rw [← String.toList_inj, toList_textOf, entriesOf_append]
    simp [entriesOf]
  rw [← htext]
  unfold insert
  simp only [l.contents_textOf ss, h, hcut]

/-- **Storing an entry in a library** of symbols puts the symbol into their list, unless one of its
name is there and may not be replaced. -/
theorem insert_textOf (h : l.Holds ss) (hblank : ' ' ∉ s.name.toList) (overwrite : Bool) :
    l.insert s.name (s.render l.schema) (l.textOf ss) overwrite =
      if s.name ∈ ss.map Symbol.name then
        if overwrite then .ok (l.textOf (put ss s), true)
        else .error (.alreadyExists (s!"symbol '{s.name}' in " ++ l.path))
      else .ok (l.textOf (put ss s), false) := by
  have hcontents := l.contents_textOf ss
  by_cases hmem : s.name ∈ ss.map Symbol.name
  · rw [if_pos hmem]
    obtain ⟨r, hr, hname⟩ := List.mem_map.mp hmem
    obtain ⟨pre, post, rfl⟩ := List.append_of_mem hr
    have hsplit : (ofName l.schema s.name).split? (l.textOf (pre ++ r :: post)) =
        some (String.ofList (l.header.toList ++ l.entriesOf pre), r.render l.schema,
          String.ofList (l.entriesOf post ++ l.footer.toList)) := by
      rw [split?, ← hname, l.splitFrom?_textOf_of_mem h (hname ▸ hblank)]
      simp
    have htext : String.ofList (l.header.toList ++ l.entriesOf pre) ++ s.render l.schema ++
        String.ofList (l.entriesOf post ++ l.footer.toList) = l.textOf (pre ++ s :: post) := by
      rw [← String.toList_inj, toList_textOf, entriesOf_append]
      simp [entriesOf]
    rw [put_of_split l h hname, ← htext]
    unfold insert
    simp only [hcontents, hsplit]
  · rw [if_neg hmem, put_of_not_mem hmem]
    have hsplit : (ofName l.schema s.name).split? (l.textOf ss) = none := by
      rw [split?, l.splitFrom?_textOf_of_not_mem h hmem hblank]
      rfl
    exact l.insert_textOf_of_split?_eq_none hsplit overwrite

end EdaParts.SymbolLibrary
