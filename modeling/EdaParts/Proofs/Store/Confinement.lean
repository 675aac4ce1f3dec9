import EdaParts.Proofs.Store.Failure
import EdaParts.Proofs.Text.Pieces
import Mathlib.Data.List.Infix
import Mathlib.Data.List.TakeWhile

/-!
# Where storing reaches

Storing in a library reaches no further than the library: its directory of footprints, that of its models, the file
of its symbols, and the file of the footprint. Whatever else appears is a directory on the way to the directory
that the library is in.

* `FileTree.namesFrom?` : the names by which a path leads on from the directory of the tree;
* `FileTree.stations` : the places on the way of names; `Leads.directory` : where directories stand anyway;
* `FileTree.Confined` : what may change from one tree to another; `FileTree.confined_makeDirectories`,
  `FileTree.confined_write?` : one operation, `FileTree.Confined.trans` : one after another;
* `LibraryLocation.Files`, `LibraryLocation.Folders` : the places of a library;
* `Component.confined_store` : storing a component, with whatever outcome.
-/

namespace EdaParts

/-! ## Parts of paths -/

namespace FileTree

variable {t t' t'' : FileTree} {p q here : Place} {ns ms : List String} {d n path root : String}

theorem parts_ne_nil (path : String) : parts path ≠ [] :=
  fun h => Text.pieces_ne_nil _ _ (List.map_eq_nil_iff.mp h)

/-- A name without slashes is one part more. -/
theorem parts_append_slash (d : String) (h : '/' ∉ n.toList) : parts (d ++ "/" ++ n) = parts d ++ [n] := by
  have hchars : (d ++ "/" ++ n).toList = d.toList ++ '/' :: n.toList := by simp
  rw [parts, hchars, Text.pieces_append_sep, Text.pieces_of_not_mem h, List.map_append, List.map_singleton,
    String.ofList_toList]
  rfl

theorem toList_ofParts (ps : List String) : (ofParts ps).toList = Text.join '/' (ps.map String.toList) := by
  induction ps with
  | nil => rfl
  | cons p ps ih =>
    cases ps with
    | nil =>
      rw [ofParts, String.intercalate_singleton]
      rfl
    | cons q ps =>
      rw [ofParts] at ih ⊢
      rw [String.intercalate_cons_cons, String.toList_append, String.toList_append, ih, List.append_assoc]
      rfl

theorem parts_ofParts {ps : List String} (hne : ps ≠ []) (h : ∀ p ∈ ps, '/' ∉ p.toList) :
    parts (ofParts ps) = ps := by
  have hpieces : ∀ p ∈ ps.map String.toList, '/' ∉ p := List.forall_mem_map.mpr h
  rw [parts, toList_ofParts, Text.pieces_join (by simpa using hne) hpieces, List.map_map]
  simp

theorem not_mem_of_mem_parts {part : String} (h : part ∈ parts path) : '/' ∉ part.toList := by
  obtain ⟨piece, hpiece, rfl⟩ := List.mem_map.mp h
  rw [String.toList_ofList]
  exact Text.not_mem_of_mem_pieces hpiece

/-- The names by which a path leads on from a directory, however long it is. -/
def namesFrom? (root path : String) : Option (List String) :=
  if (parts root).isPrefixOf (parts path) then
    some (((parts path).drop (parts root).length).filter (!isStill ·))
  else none

theorem namesFrom?_eq_some_iff : namesFrom? root path = some ns ↔
    ∃ rest, parts path = parts root ++ rest ∧ ns = rest.filter (!isStill ·) := by
  unfold namesFrom?
  constructor
  · intro h
    split at h
    · next hprefix =>
      obtain ⟨rest, hrest⟩ := List.isPrefixOf_iff_prefix.mp hprefix
      rw [← hrest, List.drop_left] at h
      exact ⟨rest, hrest.symm, (Option.some.inj h).symm⟩
    · cases h
  · rintro ⟨rest, hrest, rfl⟩
    rw [hrest, if_pos (List.isPrefixOf_iff_prefix.mpr (List.prefix_append _ _)), List.drop_left]

theorem namesFrom?_of_names? (h : t.names? path = some ns) : namesFrom? t.directory path = some ns :=
  namesFrom?_eq_some_iff.mpr (exists_parts_of_names? h)

/-- A path with one name more leads one name further, unless that is the name of the directory itself. -/
theorem namesFrom?_join (hslash : '/' ∉ n.toList) (hstill : isStill n = false)
    (h : namesFrom? root (d ++ "/" ++ n) = some ms) :
    (∃ ns, namesFrom? root d = some ns ∧ ms = ns ++ [n]) ∨ parts root = parts d ++ [n] ∧ ms = [] := by
  obtain ⟨rest, hrest, rfl⟩ := namesFrom?_eq_some_iff.mp h
  rw [parts_append_slash d hslash] at hrest
  rcases List.eq_nil_or_concat rest with rfl | ⟨rest, m, rfl⟩
  · rw [List.append_nil] at hrest
    exact .inr ⟨hrest.symm, rfl⟩
  · rw [List.concat_eq_append, ← List.append_assoc] at hrest
    obtain ⟨hparts, hlast⟩ := List.append_inj' hrest rfl
    obtain rfl := List.singleton_inj.mp hlast
    refine .inl ⟨_, namesFrom?_eq_some_iff.mpr ⟨rest, hparts, rfl⟩, ?_⟩
    rw [List.concat_eq_append, List.filter_append, List.filter_singleton]
    simp [hstill]

/-- The directory of a path with one name more is that before the name. -/
theorem namesFrom?_parent (hslash : '/' ∉ n.toList) (hstill : isStill n = false)
    (h : namesFrom? root (parent (d ++ "/" ++ n)) = some ms) : namesFrom? root d = some ms ∨ ms = [] := by
  -- Parts that lead nowhere are left out at the end of the directory.
  obtain ⟨ps, stills, hparts, hstills, hparent⟩ : ∃ ps stills, parts d = ps ++ stills ∧
      stills.filter (!isStill ·) = [] ∧ parent (d ++ "/" ++ n) = ofParts ps := by
    refine ⟨((parts d).reverse.dropWhile isStill).reverse, ((parts d).reverse.takeWhile isStill).reverse, ?_, ?_, ?_⟩
    · rw [← List.reverse_append, List.takeWhile_append_dropWhile, List.reverse_reverse]
    · rw [List.filter_eq_nil_iff]
      intro part hpart
      simp [List.mem_takeWhile_imp (List.mem_reverse.mp hpart)]
    · rw [parent, parts_append_slash d hslash, List.reverse_append, List.reverse_singleton, List.singleton_append,
        List.dropWhile_cons, hstill]
      rfl
  obtain ⟨rest, hrest, rfl⟩ := namesFrom?_eq_some_iff.mp h
  rw [hparent] at hrest
  by_cases hnil : ps = []
  · subst hnil
    have hroot : parts root ++ rest = [""] := hrest.symm
    rcases List.append_eq_singleton_iff.mp hroot with ⟨hnone, -⟩ | ⟨-, rfl⟩
    · exact absurd hnone (parts_ne_nil root)
    · exact .inr rfl
  · have hslashes : ∀ part ∈ ps, '/' ∉ part.toList := fun part hpart =>
      not_mem_of_mem_parts (hparts ▸ List.mem_append_left stills hpart)
    rw [parts_ofParts hnil hslashes] at hrest
    refine .inl (namesFrom?_eq_some_iff.mpr ⟨rest ++ stills, ?_, ?_⟩)
    · rw [hparts, hrest, List.append_assoc]
    · rw [List.filter_append, hstills, List.append_nil]

/-! ## Stations -/

/-- The places on the way of names from a place, where directories are made. -/
def stations (here : Place) : List String → List Place
  | [] => []
  | n :: ns => if n = ".." then stations here.up ns else (here ++ [n]) :: stations (here ++ [n]) ns

theorem stations_concat (hup : n ≠ "..") (here : Place) (ns : List String) :
    stations here (ns ++ [n]) = stations here ns ++ [target here ns ++ [n]] := by
  induction ns generalizing here with
  | nil => simp [stations, target, hup]
  | cons m ns ih =>
    rw [List.cons_append, stations, stations, target, ih, ih]
    split <;> rfl

theorem stations_up (here : Place) (ns : List String) : stations here (".." :: ns) = stations here.up ns := by
  rw [stations, if_pos rfl]

theorem stations_down (hup : n ≠ "..") (here : Place) (ns : List String) :
    stations here (n :: ns) = (here ++ [n]) :: stations (here ++ [n]) ns := by
  rw [stations, if_neg hup]

/-- On a way that leads, directories stand already. -/
theorem Leads.directory (h : t.Leads here ns) : ∀ p ∈ stations here ns, t.get? p = some .directory := by
  induction ns generalizing here with
  | nil => exact List.forall_mem_nil _
  | cons n ns ih =>
    by_cases hup : n = ".."
    · subst hup
      rw [stations_up]
      exact ih (leads_up.mp h)
    · obtain ⟨-, hdir, hrest⟩ := (leads_down hup).mp h
      rw [stations_down hup]
      exact List.forall_mem_cons.mpr ⟨hdir, ih hrest⟩

theorem leads_of_walk? (h : t.walk? here ns = some p) (hp : t.get? p = some .directory) : t.Leads here ns := by
  induction ns generalizing here with
  | nil => trivial
  | cons n ns ih =>
    rcases walk?_cons_eq_some_iff.mp h with ⟨rfl, h⟩ | ⟨hup, hname, ⟨rfl, rfl⟩ | ⟨-, hdir, h⟩⟩
    · exact leads_up.mpr (ih h)
    · exact (leads_down hup).mpr ⟨hname, hp, trivial⟩
    · exact (leads_down hup).mpr ⟨hname, hdir, ih h⟩

/-! ## What may change -/

/-- What changes from one tree to another is a file among some places, or a directory at one of others where
nothing stood. -/
structure Confined (t t' : FileTree) (files folders : Place → Prop) : Prop where
  directory : t'.directory = t.directory
  changes : ∀ p, t'.get? p ≠ t.get? p →
    files p ∨ folders p ∧ t.get? p = none ∧ t'.get? p = some .directory

variable {files folders : Place → Prop}

theorem Confined.refl (t : FileTree) : t.Confined t files folders :=
  ⟨rfl, fun _ h => absurd rfl h⟩

theorem Confined.trans (h : t.Confined t' files folders) (h' : t'.Confined t'' files folders) :
    t.Confined t'' files folders := by
  refine ⟨h'.directory.trans h.directory, fun p hp => ?_⟩
  by_cases hsame : t''.get? p = t'.get? p
  · rw [hsame] at hp ⊢
    exact h.changes p hp
  · rcases h'.changes p hsame with hfile | ⟨hfolder, hnone, hdir⟩
    · exact .inl hfile
    · by_cases hfirst : t'.get? p = t.get? p
      · exact .inr ⟨hfolder, hfirst ▸ hnone, hdir⟩
      · refine (h.changes p hfirst).imp_right fun ⟨_, _, hstands⟩ => ?_
        rw [hnone] at hstands
        cases hstands

theorem confined_put_directory (hnone : t.get? p = none) (hp : folders p) :
    t.Confined (t.put p .directory) files folders := by
  have habove : p.isAbove = false := isAbove_eq_false (by rw [hnone]; exact nofun)
  refine ⟨rfl, fun q hq => ?_⟩
  have hqp : q = p := not_imp_comm.mp get?_put_ne hq
  rw [hqp]
  exact .inr ⟨hp, hnone, get?_put_self habove⟩

/-- Making directories reaches the stations alone. -/
theorem confined_makeDirectories {b : Bool} (h : t.makeDirectories here ns = (t', b))
    (hfolders : ∀ p ∈ stations here ns, folders p) : t.Confined t' files folders := by
  induction ns generalizing t here with
  | nil =>
    obtain ⟨rfl, -⟩ := Prod.mk.inj h
    exact .refl t
  | cons n ns ih =>
    rcases makeDirectories_cons h with ⟨rfl, h⟩ | ⟨-, rfl, -⟩ | ⟨hup, -, t₁, hmade, hstep⟩
    · exact ih h (stations_up here ns ▸ hfolders)
    · exact .refl _
    · rw [stations_down hup] at hfolders
      obtain ⟨hstation, hrest⟩ := List.forall_mem_cons.mp hfolders
      rcases hstep with ⟨-, rfl⟩ | ⟨hnone, rfl⟩
      · exact ih hmade hrest
      · exact (confined_put_directory hnone hstation).trans (ih hmade hrest)

theorem confined_createDirectories {b : Bool} (h : t.createDirectories path = (t', b))
    (hfolders : ∀ ns, namesFrom? t.directory path = some ns → ∀ p ∈ stations [] ns, folders p) :
    t.Confined t' files folders := by
  unfold createDirectories at h
  split at h
  · next ns hns => exact confined_makeDirectories h (hfolders ns (namesFrom?_of_names? hns))
  · obtain ⟨rfl, -⟩ := Prod.mk.inj h
    exact .refl t

/-- Writing reaches the file that the path leads to, which is not the directory of the tree. -/
theorem confined_write? {text : String} (h : t.write? path text = some t')
    (hfiles : ∀ ns, namesFrom? t.directory path = some ns → ns ≠ [] → files (target [] ns)) :
    t.Confined t' files folders := by
  obtain ⟨p, hplace, hp, rfl⟩ := write?_eq_some_iff.mp h
  obtain ⟨ns, hns, hwalk⟩ := Option.bind_eq_some_iff.mp hplace
  obtain rfl := eq_target_of_walk? hwalk
  refine ⟨rfl, fun q hq => ?_⟩
  have hqp : q = target [] ns := not_imp_comm.mp get?_put_ne hq
  rw [hqp]
  refine .inl (hfiles ns (namesFrom?_of_names? hns) ?_)
  rintro rfl
  exact hp (get?_of_isAbove rfl)

theorem confined_save {text : String} {r : Except Error Unit} (h : t.save path text = (r, t'))
    (hfolders : ∀ ns, namesFrom? t.directory (parent path) = some ns → ∀ p ∈ stations [] ns, folders p)
    (hfiles : ∀ ns, namesFrom? t.directory path = some ns → ns ≠ [] → files (target [] ns)) :
    t.Confined t' files folders := by
  unfold save at h
  split at h
  · next hmade =>
    obtain ⟨-, rfl⟩ := Prod.mk.inj h
    exact confined_createDirectories hmade hfolders
  · next t₁ hmade =>
    have hdirectories : t.Confined t₁ files folders := confined_createDirectories hmade hfolders
    split at h
    · next t₂ hwrite =>
      obtain ⟨-, rfl⟩ := Prod.mk.inj h
      exact hdirectories.trans (confined_write? hwrite (hdirectories.directory ▸ hfiles))
    · obtain ⟨-, rfl⟩ := Prod.mk.inj h
      exact hdirectories

/-! ## Names in a directory -/

/-- A name that leads one step down. -/
structure IsComponent (n : String) : Prop where
  slash : '/' ∉ n.toList
  still : isStill n = false
  up : n ≠ ".."

theorem isComponent_append {s ending : String} (hs : '/' ∉ s.toList) (hending : '/' ∉ ending.toList)
    (hlength : 2 < ending.toList.length) : IsComponent (s ++ ending) := by
  have hne : ∀ short : String, short.toList.length ≤ 2 → s ++ ending ≠ short := by
    rintro short hshort rfl
    rw [String.toList_append, List.length_append] at hshort
    omega
  refine ⟨?_, ?_, hne ".." (by decide)⟩
  · rw [String.toList_append, List.mem_append, not_or]
    exact ⟨hs, hending⟩
  · simp only [isStill, Bool.or_eq_false_iff, decide_eq_false_iff_not]
    exact ⟨hne "" (by decide), hne "." (by decide)⟩

theorem joinPath_of_isComponent (hn : IsComponent n) (d : String) : joinPath d n = d ++ "/" ++ n := by
  refine if_neg fun habsolute => hn.slash ?_
  cases hchars : n.toList with
  | nil => simp [isAbsolute, hchars] at habsolute
  | cons c cs =>
    obtain rfl : c = '/' := by simpa [isAbsolute, hchars] using habsolute
    exact List.mem_cons_self

theorem namesFrom?_joinPath (hn : IsComponent n) (h : namesFrom? root (joinPath d n) = some ms) :
    (∃ ns, namesFrom? root d = some ns ∧ ms = ns ++ [n]) ∨ parts root = parts d ++ [n] ∧ ms = [] := by
  rw [joinPath_of_isComponent hn] at h
  exact namesFrom?_join hn.slash hn.still h

theorem namesFrom?_joinPath_of (hn : IsComponent n) (h : namesFrom? root d = some ns) :
    namesFrom? root (joinPath d n) = some (ns ++ [n]) := by
  obtain ⟨rest, hrest, rfl⟩ := namesFrom?_eq_some_iff.mp h
  refine namesFrom?_eq_some_iff.mpr ⟨rest ++ [n], ?_, ?_⟩
  · rw [joinPath_of_isComponent hn, parts_append_slash d hn.slash, hrest, List.append_assoc]
  · rw [List.filter_append, List.filter_singleton]
    simp [hn.still]

/-- Making a directory in another one reaches those on the way to that, and the directory itself. -/
theorem confined_createDirectories_joinPath {b : Bool} (hn : IsComponent n)
    (h : t.createDirectories (joinPath d n) = (t', b))
    (hway : ∀ ns, namesFrom? t.directory d = some ns → ∀ p ∈ stations [] ns, folders p)
    (hfolder : ∀ ns, namesFrom? t.directory d = some ns → folders (target [] ns ++ [n])) :
    t.Confined t' files folders := by
  refine confined_createDirectories h fun ms hms => ?_
  rcases namesFrom?_joinPath hn hms with ⟨ns, hns, rfl⟩ | ⟨-, rfl⟩
  · rw [stations_concat hn.up]
    exact List.forall_mem_append.mpr ⟨hway ns hns, List.forall_mem_singleton.mpr (hfolder ns hns)⟩
  · exact List.forall_mem_nil _

/-- Saving a file in a directory reaches those on the way to that, and the file. -/
theorem confined_save_joinPath {text : String} {r : Except Error Unit} (hn : IsComponent n)
    (h : t.save (joinPath d n) text = (r, t'))
    (hway : ∀ ns, namesFrom? t.directory d = some ns → ∀ p ∈ stations [] ns, folders p)
    (hfile : ∀ ns, namesFrom? t.directory d = some ns → files (target [] ns ++ [n])) :
    t.Confined t' files folders := by
  refine confined_save h (fun ms hms => ?_) fun ms hms hne => ?_
  · rw [joinPath_of_isComponent hn] at hms
    rcases namesFrom?_parent hn.slash hn.still hms with hns | rfl
    · exact hway ms hns
    · exact List.forall_mem_nil _
  · rcases namesFrom?_joinPath hn hms with ⟨ns, hns, rfl⟩ | ⟨-, rfl⟩
    · rw [target_concat hn.up]
      exact hfile ns hns
    · exact absurd rfl hne

theorem exists_namesFrom?_of_createDirectories (h : t.createDirectories path = (t', true)) :
    ∃ ns, namesFrom? t.directory path = some ns := by
  unfold createDirectories at h
  split at h
  · next ns hns => exact ⟨ns, namesFrom?_of_names? hns⟩
  · cases h

/-- A directory in which two directories of the tree lie is in the tree. One alone may be that of the tree. -/
theorem exists_namesFrom?_of_two {m : String} {ks : List String} (hn : IsComponent n) (hm : IsComponent m)
    (hne : n ≠ m) (h : namesFrom? root (joinPath d n) = some ms) (h' : namesFrom? root (joinPath d m) = some ks) :
    ∃ ns, namesFrom? root d = some ns := by
  rcases namesFrom?_joinPath hn h with ⟨ns, hns, -⟩ | ⟨hroot, -⟩
  · exact ⟨ns, hns⟩
  · rcases namesFrom?_joinPath hm h' with ⟨ns, hns, -⟩ | ⟨hroot', -⟩
    · exact ⟨ns, hns⟩
    · have hsame : [n] = [m] := List.append_cancel_left (hroot.symm.trans hroot')
      exact absurd (List.singleton_inj.mp hsame) hne

end FileTree

/-! ## Libraries -/

namespace LibraryLocation

open FileTree (namesFrom? target stations)

variable (l : LibraryLocation)

/-- The places of the file of symbols and the file of a footprint, below the place of the directory. -/
def filePlaces (name : String) (base : Place) : List Place :=
  [base ++ [l.library ++ "." ++ l.schema.symbolExtension],
    base ++ [l.library ++ ".pretty"] ++ [name ++ "." ++ l.schema.footprintExtension]]

/-- The places of the directories of footprints and of models. -/
def folderPlaces (base : Place) : List Place :=
  [base ++ [l.library ++ ".pretty"], base ++ [l.library ++ ".3dshapes"]]

/-- The place is that of a file that storing may write. -/
def Files (root name : String) (p : Place) : Prop :=
  ∃ ns, namesFrom? root l.directory = some ns ∧ p ∈ l.filePlaces name (target [] ns)

/-- The place is that of a directory of the library or on the way to it. -/
def Folders (root : String) (p : Place) : Prop :=
  ∃ ns, namesFrom? root l.directory = some ns ∧ (p ∈ stations [] ns ∨ p ∈ l.folderPlaces (target [] ns))

end LibraryLocation

open FileTree LibraryLocation

theorem FootprintLibrary.confined_write {l : FootprintLibrary} {name content : String} {overwrite : Bool}
    {t : FileTree} (hlibrary : '/' ∉ l.library.toList) (hname : '/' ∉ name.toList) :
    t.Confined ((l.write name content overwrite).exec t).2 (l.Files t.directory name) (l.Folders t.directory) := by
  have hpretty : IsComponent (l.library ++ ".pretty") := isComponent_append hlibrary (by decide) (by decide)
  have hshapes : IsComponent (l.library ++ ".3dshapes") := isComponent_append hlibrary (by decide) (by decide)
  have hfile : IsComponent (name ++ "." ++ l.schema.footprintExtension) := by
    rw [String.append_assoc]
    cases l.schema <;> exact isComponent_append hname (by decide) (by decide)
  rw [exec_write_eq]
  split
  · exact .refl t
  · rcases hfolder : t.createDirectories l.folder with ⟨t₁, made⟩
    have hfirst : t.Confined t₁ (l.Files t.directory name) (l.Folders t.directory) :=
      confined_createDirectories_joinPath hpretty hfolder (fun ns hns p hp => ⟨ns, hns, .inl hp⟩)
        fun ns hns => ⟨ns, hns, .inr List.mem_cons_self⟩
    cases made with
    | false => exact hfirst
    | true =>
      dsimp only
      rcases hmodels : t₁.createDirectories l.modelFolder with ⟨t₂, made⟩
      have hsecond : t₁.Confined t₂ (l.Files t.directory name) (l.Folders t.directory) := by
        refine confined_createDirectories_joinPath hshapes hmodels (fun ns hns p hp => ?_) fun ns hns => ?_
        · exact ⟨ns, hfirst.directory ▸ hns, .inl hp⟩
        · exact ⟨ns, hfirst.directory ▸ hns, .inr (List.mem_cons_of_mem _ List.mem_cons_self)⟩
      cases made with
      | false => exact hfirst.trans hsecond
      | true =>
        dsimp only
        obtain ⟨ns, hns⟩ : ∃ ns, namesFrom? t.directory l.directory = some ns := by
          obtain ⟨ms, hms⟩ := exists_namesFrom?_of_createDirectories hfolder
          obtain ⟨ks, hks⟩ := exists_namesFrom?_of_createDirectories hmodels
          rw [hfirst.directory] at hks
          exact exists_namesFrom?_of_two hpretty hshapes (by simp) hms hks
        cases hwrite : t₂.write? (l.path name) content with
        | none => exact hfirst.trans hsecond
        | some t₃ =>
          refine (hfirst.trans hsecond).trans (confined_write? hwrite fun ms hms hne => ⟨ns, hns, ?_⟩)
          rw [hsecond.directory, hfirst.directory] at hms
          have hpath := namesFrom?_joinPath_of hfile (namesFrom?_joinPath_of hpretty hns)
          obtain rfl := Option.some.inj (hms.symm.trans hpath)
          rw [target_concat hfile.up, target_concat hpretty.up]
          exact List.mem_cons_of_mem _ List.mem_cons_self

theorem SymbolLibrary.confined_write {l : SymbolLibrary} {name entry : String} {overwrite : Bool} {t : FileTree}
    (footprint : String) (hlibrary : '/' ∉ l.library.toList) :
    t.Confined ((l.write name entry overwrite).exec t).2 (l.Files t.directory footprint) (l.Folders t.directory) := by
  have hfile : IsComponent (l.library ++ "." ++ l.schema.symbolExtension) := by
    rw [String.append_assoc]
    cases l.schema <;> exact isComponent_append hlibrary (by decide) (by decide)
  rw [exec_write]
  cases t.read l.path with
  | error e => exact .refl t
  | ok text =>
    dsimp only
    cases l.insert name entry (text.getD "") overwrite with
    | error e => exact .refl t
    | ok inserted =>
      obtain ⟨new, replaced⟩ := inserted
      dsimp only
      rcases hsave : t.save l.path new with ⟨r, t'⟩
      exact confined_save_joinPath hfile hsave (fun ns hns p hp => ⟨ns, hns, .inl hp⟩)
        fun ns hns => ⟨ns, hns, List.mem_cons_self⟩

theorem Storing.exec_keepExisting_tree (name : String) (write : Storing Unit) (t : FileTree) :
    ((keepExisting name write).exec t).2 = (write.exec t).2 := by
  rw [exec_keepExisting]
  rcases write.exec t with ⟨e | u, t'⟩
  · cases e <;> rfl
  · rfl

theorem Storing.confined_artifact {asked lacks : Bool} {made : Outcome String} {keep : String → Storing Status}
    {t : FileTree} {files folders : Place → Prop} (h : ∀ text, t.Confined ((keep text).exec t).2 files folders) :
    t.Confined ((artifact asked lacks made keep).exec t).2 files folders := by
  rw [exec_artifact]
  split
  · exact .refl t
  · split
    · exact .refl t
    · split
      · exact .refl t
      · exact h _

/-! ## Components -/

namespace Component

variable {c : Component} {o : Options} {directory : String} {t : FileTree}

/-- Where the libraries of the options are. -/
def location (directory : String) (o : Options) : LibraryLocation :=
  ⟨directory, o.libraryName, o.schema⟩

theorem confined_storeFootprint (hlibrary : '/' ∉ o.libraryName.toList)
    (hname : '/' ∉ c.info.footprintName.toList) :
    t.Confined ((c.storeFootprint directory o).exec t).2 ((location directory o).Files t.directory c.info.footprintName)
      ((location directory o).Folders t.directory) := by
  rw [storeFootprint_eq]
  refine Storing.confined_artifact fun content => ?_
  rw [Storing.exec_keepExisting_tree]
  exact FootprintLibrary.confined_write hlibrary hname

theorem confined_storeSymbol (footprint : String) (hlibrary : '/' ∉ o.libraryName.toList) :
    t.Confined ((c.storeSymbol directory o).exec t).2 ((location directory o).Files t.directory footprint)
      ((location directory o).Folders t.directory) := by
  rw [storeSymbol_eq]
  refine Storing.confined_artifact fun entry => ?_
  rw [Storing.exec_keepExisting_tree]
  exact SymbolLibrary.confined_write footprint hlibrary

/-- **Storing a component** reaches the places of its library alone, whatever comes of it. -/
theorem confined_store (hlibrary : '/' ∉ o.libraryName.toList) (hname : '/' ∉ c.info.footprintName.toList) :
    t.Confined ((c.store directory o).exec t).2 ((location directory o).Files t.directory c.info.footprintName)
      ((location directory o).Folders t.directory) := by
  rw [exec_store]
  cases o.validate with
  | error e => exact .refl t
  | ok u =>
    have hfirst := @confined_storeFootprint c o directory t hlibrary hname
    dsimp only
    rcases hfootprint : (c.storeFootprint directory o).exec t with ⟨e | footprint, t₁⟩
    · rw [hfootprint] at hfirst
      exact hfirst
    · rw [hfootprint] at hfirst
      have hsecond := @confined_storeSymbol c o directory t₁ c.info.footprintName hlibrary
      rw [hfirst.directory] at hsecond
      dsimp only
      rcases hsymbol : (c.storeSymbol directory o).exec t₁ with ⟨e | symbol, t₂⟩
      all_goals
        rw [hsymbol] at hsecond
        exact hfirst.trans hsecond

end Component

/-- In a directory that is there, nothing is reached but the library. -/
theorem FileTree.Confined.of_directory {l : LibraryLocation} {t t' : FileTree} {base : Place} {name : String}
    (h : t.Confined t' (l.Files t.directory name) (l.Folders t.directory))
    (hplace : t.place? l.directory = some base) (hbase : t.get? base = some .directory) (p : Place)
    (hp : t'.get? p ≠ t.get? p) : p ∈ l.filePlaces name base ++ l.folderPlaces base := by
  obtain ⟨ns, hns, hwalk⟩ := Option.bind_eq_some_iff.mp hplace
  obtain rfl := eq_target_of_walk? hwalk
  have hnames := namesFrom?_of_names? hns
  rcases h.changes p hp with ⟨ms, hms, hfile⟩ | ⟨⟨ms, hms, hfolder⟩, hnone, -⟩
  · obtain rfl := Option.some.inj (hms.symm.trans hnames)
    exact List.mem_append_left _ hfile
  · obtain rfl := Option.some.inj (hms.symm.trans hnames)
    rcases hfolder with hstation | hfolder
    · have hdirectory := (leads_of_walk? hwalk hbase).directory p hstation
      rw [hnone] at hdirectory
      cases hdirectory
    · exact List.mem_append_right _ hfolder

end EdaParts
