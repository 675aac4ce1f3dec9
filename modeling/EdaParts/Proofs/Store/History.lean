import EdaParts.Proofs.Record.Reading
import EdaParts.Proofs.Store.Insertion
import EdaParts.Proofs.Store.Operations

/-!
# Histories of a library

A library that begins as no file, and into which symbols are stored one after the other, is at any
time the text of a list: the symbols that were stored, each name once, in the order in which the
names came, and the last one of each name.

* `Call`, `run` : storing a symbol, and a run of such calls from a tree of files;
* `stored` : the list of symbols that successful calls amount to, `stored_append` : one more call puts
  its symbol into the list;
* `Agrees` : a tree of files has the text of a list in the library, and `exec_of_agrees` : what a call does
  there;
* `run_refines_stored` : after any run the library is the list.
-/

namespace EdaParts.SymbolLibrary

open Text EntryPattern

/-! ## Lists that calls amount to -/

def lastNamed (done : List Symbol) (n : String) : Option Symbol :=
  done.reverse.find? (·.name = n)

/-- The last symbol of each name, in the order in which the names came. -/
def stored (done : List Symbol) : List Symbol :=
  (done.map Symbol.name).eraseDups.filterMap (lastNamed done)

section
variable {done : List Symbol} {r s : Symbol} {n : String}

theorem lastNamed_append :
    lastNamed (done ++ [s]) n = if s.name = n then some s else lastNamed done n := by
  unfold lastNamed
  rw [List.reverse_append, List.reverse_singleton, List.singleton_append, List.find?_cons]
  by_cases h : s.name = n <;> simp [h]

theorem name_of_lastNamed (h : lastNamed done n = some r) : r.name = n := by
  simpa using List.find?_some h

theorem lastNamed_of_mem (h : n ∈ done.map Symbol.name) : ∃ r, lastNamed done n = some r := by
  obtain ⟨r, hr, hname⟩ := List.mem_map.mp h
  refine Option.isSome_iff_exists.mp ?_
  unfold lastNamed
  rw [List.find?_isSome]
  exact ⟨r, List.mem_reverse.mpr hr, by simpa using hname⟩

theorem map_name_stored : (stored done).map Symbol.name = (done.map Symbol.name).eraseDups := by
  unfold stored
  rw [List.map_filterMap]
  refine (List.filterMap_congr fun n hn => ?_).trans List.filterMap_some
  obtain ⟨r, hr⟩ := lastNamed_of_mem (List.mem_eraseDups.mp hn)
  rw [hr, Option.map_some, name_of_lastNamed hr]

theorem mem_map_name_stored : n ∈ (stored done).map Symbol.name ↔ n ∈ done.map Symbol.name := by
  rw [map_name_stored, List.mem_eraseDups]

/-- One more call puts its symbol into the list. -/
theorem stored_append : stored (done ++ [s]) = put (stored done) s := by
  have hnames : ((done ++ [s]).map Symbol.name).eraseDups =
      (done.map Symbol.name).eraseDups ++ ([s.name].removeAll (done.map Symbol.name)).eraseDups := by
    rw [List.map_append, List.map_singleton, List.eraseDups_append]
  by_cases h : s.name ∈ done.map Symbol.name
  · have hnone : [s.name].removeAll (done.map Symbol.name) = [] := by simpa [List.removeAll] using h
    rw [put, if_pos (mem_map_name_stored.mpr h)]
    unfold stored
    rw [hnames, hnone, List.eraseDups_nil, List.append_nil, List.map_filterMap]
    refine List.filterMap_congr fun n hn => ?_
    obtain ⟨r, hr⟩ := lastNamed_of_mem (List.mem_eraseDups.mp hn)
    rw [lastNamed_append, hr, Option.map_some, name_of_lastNamed hr]
    by_cases hname : s.name = n
    · rw [if_pos hname, if_pos hname.symm]
    · rw [if_neg hname, if_neg (Ne.symm hname)]
  · have hone : [s.name].removeAll (done.map Symbol.name) = [s.name] := by simpa [List.removeAll] using h
    have hdone : (done.map Symbol.name).eraseDups.filterMap (lastNamed (done ++ [s])) = stored done := by
      refine List.filterMap_congr fun n hn => ?_
      have hne : s.name ≠ n := fun hname => h (hname ▸ List.mem_eraseDups.mp hn)
      rw [lastNamed_append, if_neg hne]
    have hlast : [s.name].eraseDups.filterMap (lastNamed (done ++ [s])) = [s] := by
      simp [List.eraseDups_cons, lastNamed_append]
    rw [put_of_not_mem (mt mem_map_name_stored.mp h)]
    conv_lhs => unfold stored
    rw [hnames, hone, List.filterMap_append, hdone, hlast]

end

/-! ## Calls -/

/-- A call that stores a symbol under its name. -/
structure Call where
  symbol : Symbol
  overwrite : Bool

/-- No blank stands in the name, and no text is broken into lines. -/
structure Call.IsPlain (c : Call) : Prop where
  name : ' ' ∉ c.symbol.name.toList
  lineFree : c.symbol.LineFree

def exec (l : SymbolLibrary) (c : Call) (t : FileTree) : Except Error Unit × FileTree :=
  (l.write c.symbol.name (c.symbol.render l.schema) c.overwrite).exec t

/-- The tree that a call leaves, and the symbols stored by then. -/
def after (l : SymbolLibrary) (state : FileTree × List Symbol) (c : Call) : FileTree × List Symbol :=
  match l.exec c state.1 with
  | (.ok (), t) => (t, state.2 ++ [c.symbol])
  | (.error _, t) => (t, state.2)

/-- The tree that calls leave, one after the other, and the symbols that those of them stored that
did not fail. -/
def run (l : SymbolLibrary) (t : FileTree) (calls : List Call) : FileTree × List Symbol :=
  calls.foldl l.after (t, [])

def refusal (l : SymbolLibrary) (name : String) : Error :=
  .alreadyExists (s!"symbol '{name}' in " ++ l.path)

/-- The library of a tree has the text of symbols, or no file yet that holds them; and nothing is in
the way of saving it. -/
structure Agrees (l : SymbolLibrary) (t : FileTree) (ss : List Symbol) : Prop where
  holds : l.Holds ss
  read : (t.read l.path).map (fun text => l.contents (text.getD "")) = .ok (l.textOf ss)
  canSave : t.CanSave l.path

section
variable (l : SymbolLibrary) {t t' : FileTree} {ss done : List Symbol} {calls : List Call} {c : Call}

/-- **A call** on a library of symbols stores its symbol, or is refused for the name alone. -/
theorem exec_of_agrees (h : l.Agrees t ss) (hc : c.IsPlain) :
    if c.symbol.name ∈ ss.map Symbol.name ∧ c.overwrite = false then
      l.exec c t = (.error (l.refusal c.symbol.name), t)
    else
      ∃ t', l.exec c t = (.ok (), t') ∧ t'.read l.path = .ok (some (l.textOf (put ss c.symbol))) ∧
        l.Agrees t' (put ss c.symbol) := by
  obtain ⟨text, hread, htext⟩ := map_eq_ok_iff.mp h.read
  have hinsert := (l.insert_congr (htext.trans (l.contents_textOf ss).symm)).trans
    (l.insert_textOf h.holds hc.name c.overwrite)
  have hput : ∀ replaced, l.insert c.symbol.name (c.symbol.render l.schema) (text.getD "") c.overwrite =
      .ok (l.textOf (put ss c.symbol), replaced) →
      ∃ t', l.exec c t = (.ok (), t') ∧ t'.read l.path = .ok (some (l.textOf (put ss c.symbol))) ∧
        l.Agrees t' (put ss c.symbol) := by
    intro replaced hok
    obtain ⟨t', hexec, hread', hcan⟩ := l.exec_write_of_insert hread hok h.canSave
    refine ⟨t', hexec, hread', h.holds.put l (l.isEntry_render hc.lineFree hc.name), ?_, hcan⟩
    rw [hread']
    exact congrArg Except.ok (l.contents_textOf _)
  by_cases hmem : c.symbol.name ∈ ss.map Symbol.name
  · rw [if_pos hmem] at hinsert
    cases hover : c.overwrite with
    | false =>
      rw [hover] at hinsert
      rw [if_pos ⟨hmem, rfl⟩, exec, exec_write, hread, hover]
      simp only [hinsert]
      rfl
    | true =>
      rw [if_neg (by simp)]
      rw [hover] at hinsert
      exact hput true (by rw [hover, hinsert]; rfl)
  · rw [if_neg hmem] at hinsert
    rw [if_neg fun h => hmem h.1]
    exact hput false hinsert

/-- No file at all is the text of no symbols. -/
theorem agrees_of_absent (habsent : t.read l.path = .ok none) (hsave : t.CanSave l.path) :
    l.Agrees t [] := by
  refine ⟨⟨by simp, by simp⟩, ?_, hsave⟩
  rw [habsent]
  exact congrArg Except.ok l.contents_empty

/-- What a run keeps: the library is the list that the calls amount to, and has a file as soon as
there was one. -/
theorem agrees_run (habsent : t.read l.path = .ok none) (hsave : t.CanSave l.path)
    (hcalls : ∀ c ∈ calls, c.IsPlain) :
    l.Agrees (l.run t calls).1 (stored (l.run t calls).2) ∧
      (calls ≠ [] → (l.run t calls).1.read l.path =
        .ok (some (l.textOf (stored (l.run t calls).2)))) := by
  induction calls using List.reverseRecOn with
  | nil => exact ⟨l.agrees_of_absent habsent hsave, fun h => absurd rfl h⟩
  | append_singleton calls c ih =>
    obtain ⟨hagrees, hread⟩ := ih fun d hd => hcalls d (List.mem_append_left _ hd)
    have hstep := l.exec_of_agrees hagrees (hcalls c (List.mem_append_right _ List.mem_cons_self))
    have hrun : l.run t (calls ++ [c]) = l.after (l.run t calls) c := by
      unfold run
      rw [List.foldl_append]
      rfl
    rw [hrun]
    unfold after
    split at hstep
    · next hrefused =>
      rw [hstep]
      refine ⟨hagrees, fun _ => hread ?_⟩
      -- There is a name to be refused for only after a call.
      rintro rfl
      exact absurd hrefused.1 (by simp [run, stored])
    · obtain ⟨t', hok, hread', hagrees'⟩ := hstep
      rw [hok]
      simp only [stored_append]
      exact ⟨hagrees', fun _ => hread'⟩

end

/-- **A library is the list of the symbols that were stored in it.** After any run of calls that begins
without a file, the file has an entry for each name, in the order in which the names came, and in it the
last symbol stored under that name. Exactly the names stored are found, and one more call is
refused just if its name is one of them and may not be replaced; it leaves everything as it is then. -/
theorem run_refines_stored (l : SymbolLibrary) {t : FileTree} (habsent : t.read l.path = .ok none)
    (hsave : t.CanSave l.path) {calls : List Call} (hcalls : ∀ c ∈ calls, c.IsPlain) {t' : FileTree}
    {done : List Symbol} (hrun : l.run t calls = (t', done)) :
    (calls ≠ [] → t'.read l.path = .ok (some
      (l.header ++ String.join ((stored done).map (·.render l.schema)) ++ l.footer))) ∧
    (stored done).map Symbol.name = (done.map Symbol.name).eraseDups ∧
    (∀ n : String, ' ' ∉ n.toList →
      (l.contains n).exec t' = (.ok (decide (n ∈ done.map Symbol.name)), t')) ∧
    ∀ c : Call, c.IsPlain →
      if c.symbol.name ∈ done.map Symbol.name ∧ c.overwrite = false then
        l.exec c t' = (.error (l.refusal c.symbol.name), t')
      else ∃ t'', l.exec c t' = (.ok (), t'') := by
  obtain ⟨hagrees, hread⟩ := l.agrees_run habsent hsave hcalls
  rw [hrun] at hagrees hread
  refine ⟨hread, map_name_stored, fun n hn => ?_, fun c hc => ?_⟩
  · rw [exec_contains]
    by_cases hnil : calls = []
    · subst hnil
      obtain ⟨rfl, rfl⟩ := Prod.mk.inj hrun
      rw [habsent]
      simp [Except.map, l.split?_empty]
    · rw [hread hnil]
      have hfound := l.split?_textOf hagrees.holds hn
      rw [mem_map_name_stored] at hfound
      simp only [Except.map, Option.getD_some, ← hfound, Bool.decide_eq_true]
  · have hstep := l.exec_of_agrees hagrees hc
    simp only [mem_map_name_stored] at hstep
    split at hstep
    · next h => rwa [if_pos h]
    · next h =>
      rw [if_neg h]
      obtain ⟨t'', hok, -⟩ := hstep
      exact ⟨t'', hok⟩

/-- Two symbols, one of them named like the beginning of the other. -/
theorem run_refines_stored_resistors :
    let resistor (name : String) : Symbol := ⟨name, "R", 1, [], []⟩
    let l := parts .legacy
    let calls : List Call := [⟨resistor "R10", false⟩, ⟨resistor "R1", false⟩]
    ∃ t', l.run (.empty "out") calls = (t', [resistor "R10", resistor "R1"]) ∧
      t'.read l.path = .ok (some (l.header ++
        String.join ([resistor "R10", resistor "R1"].map (·.render .legacy)) ++ l.footer)) ∧
      (l.contains "R").exec t' = (.ok false, t') ∧
      l.exec ⟨resistor "R1", false⟩ t' = (.error (l.refusal "R1"), t') := by
  intro resistor l calls
  have hfree : ∀ c ∈ calls, ' ' ∉ c.symbol.name.toList ∧ ∀ x ∈ c.symbol.texts, '\n' ∉ x.toList := by
    decide +kernel
  have hplain : ∀ c ∈ calls, c.IsPlain := fun c hc => ⟨(hfree c hc).1, (hfree c hc).2⟩
  have hdone : (l.run (.empty "out") calls).2 = [resistor "R10", resistor "R1"] := by decide +kernel
  have hstored : stored [resistor "R10", resistor "R1"] = [resistor "R10", resistor "R1"] := by
    decide +kernel
  rcases hrun : l.run (.empty "out") calls with ⟨t', done⟩
  rw [hrun] at hdone
  subst hdone
  obtain ⟨hread, -, hcontains, hnext⟩ := run_refines_stored l (read_parts _) (canSave_parts _) hplain hrun
  rw [hstored] at hread
  refine ⟨t', rfl, hread (List.cons_ne_nil _ _), hcontains "R" (by decide), ?_⟩
  have hstep := hnext ⟨resistor "R1", false⟩ (hplain _ (by simp [calls]))
  rwa [if_pos (by decide +kernel)] at hstep

end EdaParts.SymbolLibrary
