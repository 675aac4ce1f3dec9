import Mathlib.Data.List.Induction
import EdaParts.Proofs.Store.Files
import EdaParts.Proofs.Text.Pieces

/-!
# What storing leaves alone

Making directories changes no file, and writing one changes no other.

* `fileAt`, `fileOf` : the file at a place, and the one that a path leads to;
* `Keeps t t' W` : every file outside the places `W` is the same in `t'` as in `t`, and no directory is
  gone (`Keeps.refl`, `Keeps.trans`, `Keeps.mono`);
* `Stores t t' path text` : `t'` is `t` with a text in the file of a path, and nothing else changed;
* `Hides t path` : a path leads nowhere, for want of a directory on its way, but a file stands where its
  names lead; `Keeps.fileOf` : a file that is not hidden is the same by its path.
-/

namespace EdaParts.FileTree

variable {t t' t'' : FileTree} {p q here : Place} {W W' : Place → Prop} {ns : List String}
  {path text : String} {c : Content}

/-! ## Files by place and by path -/

def fileAt (t : FileTree) (p : Place) : Option Content :=
  match t.get? p with
  | some (.file c) => some c
  | _ => none

def fileOf (t : FileTree) (path : String) : Option Content :=
  (t.place? path).bind t.fileAt

theorem fileAt_eq_some_iff : t.fileAt p = some c ↔ t.get? p = some (.file c) := by
  unfold fileAt
  cases t.get? p with
  | none => simp
  | some e => cases e <;> simp

theorem read_eq_some_iff : t.read path = .ok (some text) ↔ t.fileOf path = some (.text text) := by
  unfold read fileOf
  cases t.place? path with
  | none => simp
  | some p =>
    rw [Option.bind_some, Option.bind_some, fileAt_eq_some_iff]
    cases t.get? p with
    | none => simp
    | some e =>
      cases e with
      | directory => simp
      | file c => cases c <;> simp

theorem read_eq_none_iff : t.read path = .ok none ↔ t.exists? path = false := by
  unfold read exists?
  cases (t.place? path).bind t.get? with
  | none => simp
  | some e =>
    cases e with
    | directory => simp
    | file c => cases c <;> simp

theorem fileOf_eq_none_of_exists? (h : t.exists? path = false) : t.fileOf path = none := by
  unfold exists? at h
  unfold fileOf
  cases hplace : t.place? path with
  | none => rfl
  | some p =>
    rw [hplace] at h
    rw [Option.bind_some, fileAt]
    cases hget : t.get? p with
    | none => rfl
    | some e =>
      rw [Option.bind_some, hget] at h
      cases h

/-- A file that can be read holds a text. -/
theorem exists_text_of_read {s : Option String} (hfile : t.fileOf path = some c)
    (hread : t.read path = .ok s) : ∃ text, c = .text text ∧ s = some text := by
  obtain ⟨p, hplace, hp⟩ := Option.bind_eq_some_iff.mp hfile
  unfold read at hread
  rw [hplace, Option.bind_some, fileAt_eq_some_iff.mp hp] at hread
  cases c with
  | text text => exact ⟨text, rfl, (Except.ok.inj hread).symm⟩
  | binary bytes => cases hread

/-! ## Trees with the same files -/

/-- Every file outside `W` is unchanged from `t` to `t'`, and every directory is still there. -/
structure Keeps (t t' : FileTree) (W : Place → Prop) : Prop where
  directory : t'.directory = t.directory
  directories : ∀ p, t.get? p = some .directory → t'.get? p = some .directory
  files : ∀ p, ¬ W p → t'.fileAt p = t.fileAt p

theorem Keeps.refl (t : FileTree) (W : Place → Prop) : t.Keeps t W :=
  ⟨rfl, fun _ h => h, fun _ _ => rfl⟩

theorem Keeps.trans (h : t.Keeps t' W) (h' : t'.Keeps t'' W') :
    t.Keeps t'' fun p => W p ∨ W' p := by
  refine ⟨h'.directory.trans h.directory, fun p hp => h'.directories p (h.directories p hp), ?_⟩
  intro p hp
  rw [h'.files p fun hw => hp (Or.inr hw), h.files p fun hw => hp (Or.inl hw)]

theorem Keeps.mono (h : t.Keeps t' W) (hW : ∀ p, W p → W' p) : t.Keeps t' W' :=
  ⟨h.directory, h.directories, fun p hp => h.files p fun hw => hp (hW p hw)⟩

/-- A directory where nothing stood changes no file. -/
theorem keeps_put_directory (h : t.get? p = none) : t.Keeps (t.put p .directory) fun _ => False := by
  have habove : p.isAbove = false := by
    apply isAbove_eq_false
    rw [h]
    simp
  refine ⟨rfl, fun q hq => ?_, fun q _ => ?_⟩
  · by_cases hqp : q = p
    · rw [hqp, get?_put_self habove]
    · rwa [get?_put_ne hqp]
  · unfold fileAt
    by_cases hqp : q = p
    · rw [hqp, get?_put_self habove, h]
    · rw [get?_put_ne hqp]

theorem keeps_put_file (h : t.get? p ≠ some .directory) (c : Content) :
    t.Keeps (t.put p (.file c)) fun q => q = p := by
  refine ⟨rfl, fun q hq => (get?_put_file_eq_directory_iff h).mpr hq, fun q hq => ?_⟩
  unfold fileAt
  rw [get?_put_ne hq]

/-- Making directories changes no file. -/
theorem keeps_makeDirectories {b : Bool} (h : t.makeDirectories here ns = (t', b)) :
    t.Keeps t' fun _ => False := by
  induction ns generalizing t here with
  | nil =>
    obtain ⟨rfl, -⟩ := Prod.mk.inj h
    exact Keeps.refl t _
  | cons n ns ih =>
    rcases makeDirectories_cons h with ⟨-, h⟩ | ⟨-, rfl, -⟩ | ⟨-, -, t₁, hrest, ⟨-, rfl⟩ | ⟨hnone, rfl⟩⟩
    · exact ih h
    · exact Keeps.refl _ _
    · exact ih hrest
    · exact ((keeps_put_directory hnone).trans (ih hrest)).mono (by simp)

theorem keeps_createDirectories {b : Bool} (h : t.createDirectories path = (t', b)) :
    t.Keeps t' fun _ => False := by
  unfold createDirectories at h
  split at h
  · exact keeps_makeDirectories h
  · obtain ⟨rfl, -⟩ := Prod.mk.inj h
    exact Keeps.refl t _

/-! ## One file stored -/

/-- A text stands in the file of a path, and every other file is as it was. -/
def Stores (t t' : FileTree) (path text : String) : Prop :=
  ∃ p, t'.place? path = some p ∧ t'.fileAt p = some (.text text) ∧ t.Keeps t' fun q => q = p

theorem Stores.read (h : t.Stores t' path text) : t'.read path = .ok (some text) := by
  obtain ⟨p, hplace, hfile, -⟩ := h
  rw [read_eq_some_iff, fileOf, hplace]
  exact hfile

theorem Stores.keeps (h : t.Stores t' path text) :
    t.Keeps t' fun p => t'.place? path = some p ∧ t'.fileAt p ≠ none := by
  obtain ⟨q, hplace, hfile, hkeeps⟩ := h
  apply hkeeps.mono
  rintro p rfl
  rw [hfile]
  exact ⟨hplace, by simp⟩

theorem stores_of_write? (h : t.write? path text = some t') : t.Stores t' path text := by
  obtain ⟨p, hplace, hp, rfl⟩ := write?_eq_some_iff.mp h
  refine ⟨p, (place?_put_file hp).trans hplace, ?_, keeps_put_file hp _⟩
  rw [fileAt_eq_some_iff, get?_put_self (isAbove_eq_false hp)]

/-- Directories that are made before do not count. -/
theorem Keeps.stores (h : t.Keeps t' fun _ => False) (h' : t'.Stores t'' path text) :
    t.Stores t'' path text := by
  obtain ⟨p, hplace, hfile, hkeeps⟩ := h'
  exact ⟨p, hplace, hfile, (h.trans hkeeps).mono (by simp)⟩

theorem stores_of_save (h : t.save path text = (.ok (), t')) : t.Stores t' path text := by
  unfold save at h
  split at h
  · cases h
  · next t₁ hmade =>
    split at h
    · next t₂ hwrite =>
      obtain ⟨-, rfl⟩ := Prod.mk.inj h
      exact (keeps_createDirectories hmade).stores (stores_of_write? hwrite)
    · cases h

/-! ## Where paths lead -/

/-- The place that names lead to, whatever stands on the way. -/
def target (here : Place) : List String → Place
  | [] => here
  | n :: ns => if n = ".." then target here.up ns else target (here ++ [n]) ns

theorem eq_target_of_walk? (h : t.walk? here ns = some p) : p = target here ns := by
  induction ns generalizing here with
  | nil => exact (Option.some.inj h).symm
  | cons n ns ih =>
    rw [target]
    rcases walk?_cons_eq_some_iff.mp h with ⟨hup, h⟩ | ⟨hup, -, ⟨rfl, rfl⟩ | ⟨-, -, h⟩⟩
    · rw [if_pos hup]
      exact ih h
    · rw [if_neg hup]
      rfl
    · rw [if_neg hup]
      exact ih h

/-- The last name leads one step down. -/
theorem target_concat {n : String} (hup : n ≠ "..") (here : Place) (ns : List String) :
    target here (ns ++ [n]) = target here ns ++ [n] := by
  induction ns generalizing here with
  | nil => simp [target, hup]
  | cons m ns ih =>
    rw [List.cons_append, target, target, ih, ih]
    split <;> rfl

/-- The names of a path come after those of the directory of the tree. -/
theorem exists_parts_of_names? (h : t.names? path = some ns) :
    ∃ rest, parts path = parts t.directory ++ rest ∧ ns = rest.filter (!isStill ·) := by
  unfold names? at h
  dsimp only at h
  split at h
  · next hpath =>
    obtain ⟨rest, hrest⟩ := List.isPrefixOf_iff_prefix.mp (Bool.and_eq_true_iff.mp hpath).2
    rw [← hrest, List.drop_left] at h
    exact ⟨rest, hrest.symm, (Option.some.inj h).symm⟩
  · cases h

/-- A way through directories is still there when there are more of them. -/
theorem Keeps.walk? (hk : t.Keeps t' W) (h : t.walk? here ns = some p) :
    t'.walk? here ns = some p := by
  induction ns generalizing here with
  | nil => exact h
  | cons n ns ih =>
    rw [walk?_cons_eq_some_iff] at h ⊢
    exact h.imp (And.imp_right ih) fun ⟨hup, hname, hlast⟩ =>
      ⟨hup, hname, hlast.imp_right fun ⟨hne, hdir, hrest⟩ => ⟨hne, hk.directories _ hdir, ih hrest⟩⟩

theorem Keeps.names? (hk : t.Keeps t' W) (path : String) : t'.names? path = t.names? path := by
  unfold FileTree.names?
  rw [hk.directory]

theorem Keeps.place? (hk : t.Keeps t' W) (h : t.place? path = some p) : t'.place? path = some p := by
  unfold FileTree.place? at h ⊢
  obtain ⟨ns, hns, hwalk⟩ := Option.bind_eq_some_iff.mp h
  rw [hk.names?, hns]
  exact hk.walk? hwalk

/-- A path leads nowhere, since a directory on its way is missing, but there is a file where its names
lead. Once the directory is made, the path leads to that file. -/
def Hides (t : FileTree) (path : String) : Prop :=
  t.place? path = none ∧ ∃ ns c, t.names? path = some ns ∧ t.fileAt (target [] ns) = some c

/-- Where a path leads once directories are made, there is the file that it led to before, if none was
hidden. -/
theorem Keeps.fileAt_of_place? (hk : t.Keeps t' W) (hh : ¬ t.Hides path)
    (h : t'.place? path = some p) : t.fileAt p = t.fileOf path := by
  unfold FileTree.fileOf
  cases hplace : t.place? path with
  | some q =>
    have hq := hk.place? hplace
    rw [h] at hq
    rw [Option.bind_some, Option.some.inj hq]
  | none =>
    obtain ⟨ns, hns, hwalk⟩ := Option.bind_eq_some_iff.mp h
    rw [hk.names?] at hns
    rw [eq_target_of_walk? hwalk, Option.bind_none, Option.eq_none_iff_forall_ne_some]
    intro c hc
    exact hh ⟨hplace, ns, c, hns, hc⟩

/-- **A file that is neither hidden nor stored over** is the same by its path. -/
theorem Keeps.fileOf (hk : t.Keeps t' W) (hh : ¬ t.Hides path)
    (hW : ∀ p, t'.place? path = some p → ¬ W p) : t'.fileOf path = t.fileOf path := by
  cases hplace : t'.place? path with
  | some p =>
    rw [← hk.fileAt_of_place? hh hplace, ← hk.files p (hW p hplace), FileTree.fileOf, hplace,
      Option.bind_some]
  | none =>
    have hnone : t.place? path = none := by
      rw [Option.eq_none_iff_forall_ne_some]
      intro p hp
      rw [hk.place? hp] at hplace
      cases hplace
    rw [FileTree.fileOf, FileTree.fileOf, hplace, hnone]
    rfl

/-- What can be read later at a file that did not change could be read before. -/
theorem Keeps.read_eq_ok (hk : t.Keeps t' W) (hfile : t'.fileOf path = t.fileOf path)
    {s : Option String} (h : t'.read path = .ok s) : t.read path = .ok s := by
  cases s with
  | some text => rwa [read_eq_some_iff, ← hfile, ← read_eq_some_iff]
  | none =>
    rw [read_eq_none_iff] at h ⊢
    rw [Bool.eq_false_iff] at h ⊢
    intro hexists
    apply h
    unfold exists? at hexists ⊢
    obtain ⟨e, he⟩ := Option.isSome_iff_exists.mp hexists
    obtain ⟨p, hplace, hp⟩ := Option.bind_eq_some_iff.mp he
    rw [hk.place? hplace, Option.bind_some]
    cases e with
    | directory => rw [hk.directories p hp, Option.isSome_some]
    | file c =>
      have hc : t.fileOf path = some c := by
        rw [FileTree.fileOf, hplace, Option.bind_some, fileAt_eq_some_iff, hp]
      rw [← hfile, FileTree.fileOf, hk.place? hplace, Option.bind_some, fileAt_eq_some_iff] at hc
      rw [hc, Option.isSome_some]

/-- What is stored where no path led to a file takes no file away. -/
theorem Stores.fileAt (hs : t.Stores t' path text) (hh : ¬ t.Hides path)
    (hnone : t.fileOf path = none) (h : t.fileAt p = some c) : t'.fileAt p = some c := by
  obtain ⟨q, hplace, -, hkeeps⟩ := hs
  rw [← h]
  apply hkeeps.files
  rintro rfl
  rw [hkeeps.fileAt_of_place? hh hplace, hnone] at h
  cases h

/-! ## Trees whose paths go forward -/

/-- What stands in a tree stands in a directory, under a name that it can have. -/
def Sound (t : FileTree) : Prop :=
  ∀ p n, t.get? (p ++ [n]) ≠ none → isName n = true ∧ t.get? p = some .directory

theorem Sound.get?_of_append (hs : t.Sound) (hne : ns ≠ []) (h : t.get? (p ++ ns) ≠ none) :
    t.get? p = some .directory := by
  induction ns using List.reverseRecOn with
  | nil => exact absurd rfl hne
  | append_singleton ns n ih =>
    rw [← List.append_assoc] at h
    have hdir := (hs _ _ h).2
    by_cases hns : ns = []
    · rwa [hns, List.append_nil] at hdir
    · apply ih hns
      rw [hdir]
      simp

theorem Sound.walk?_eq_target (hs : t.Sound) (hup : ".." ∉ ns)
    (h : t.get? (here ++ ns) ≠ none) : t.walk? here ns = some (target here ns) := by
  induction ns generalizing here with
  | nil => rfl
  | cons n ns ih =>
    rw [List.mem_cons, not_or] at hup
    have hn : ¬ n = ".." := fun h => hup.1 h.symm
    have hassoc : here ++ n :: ns = here ++ [n] ++ ns := by simp
    rw [hassoc] at h
    rw [walk?, target, if_neg hn, if_neg hn]
    by_cases hns : ns = []
    · subst hns
      rw [List.append_nil] at h
      simp [(hs _ _ h).1, target]
    · have hdir := hs.get?_of_append hns h
      have hname : isName n = true := by
        apply (hs here n _).1
        rw [hdir]
        simp
      simp [hname, hns, hdir, ih hup.2 h]

theorem target_of_not_mem (hup : ".." ∉ ns) : target here ns = here ++ ns := by
  induction ns generalizing here with
  | nil => rw [target, List.append_nil]
  | cons n ns ih =>
    rw [List.mem_cons, not_or] at hup
    rw [target, if_neg fun h => hup.1 h.symm, ih hup.2, List.append_assoc, List.singleton_append]

/-- **A path that never leads back up** hides no file. -/
theorem Sound.not_hides (hs : t.Sound) (hup : ∀ ns, t.names? path = some ns → ".." ∉ ns) :
    ¬ t.Hides path := by
  rintro ⟨hplace, ns, c, hns, hc⟩
  have hfile := fileAt_eq_some_iff.mp hc
  rw [target_of_not_mem (hup ns hns), List.nil_append] at hfile
  have hwalk : t.walk? [] ns = some (target [] ns) := by
    apply hs.walk?_eq_target (hup ns hns)
    rw [List.nil_append, hfile]
    simp
  rw [place?, hns, Option.bind_some, hwalk] at hplace
  cases hplace

/-! ## The last name of a path -/

theorem getLast?_pieces_append {c : Char} {ys : List Char} (xs : List Char) (hy : c ∉ ys) :
    ∃ us, (Text.pieces c (xs ++ ys)).getLast? = some (us ++ ys) := by
  induction xs with
  | nil => exact ⟨[], by rw [List.nil_append, Text.pieces_of_not_mem hy]; rfl⟩
  | cons d xs ih =>
    obtain ⟨us, hus⟩ := ih
    rw [List.cons_append, Text.pieces]
    cases hpieces : Text.pieces c (xs ++ ys) with
    | nil =>
      rw [hpieces] at hus
      cases hus
    | cons p ps =>
      rw [hpieces] at hus
      by_cases hd : d = c
      · exact ⟨us, by rw [if_pos hd, List.getLast?_cons_cons, hus]⟩
      · cases ps with
        | nil =>
          obtain rfl : p = us ++ ys := by simpa using hus
          exact ⟨d :: us, by rw [if_neg hd]; rfl⟩
        | cons q ps =>
          rw [List.getLast?_cons_cons] at hus
          exact ⟨us, by rw [if_neg hd, List.getLast?_cons_cons, hus]⟩

theorem exists_getLast?_parts {ending : String} (start : String) (h : '/' ∉ ending.toList) :
    ∃ front, (parts (start ++ ending)).getLast? = some (front ++ ending) := by
  obtain ⟨us, hus⟩ := getLast?_pieces_append start.toList h
  refine ⟨String.ofList us, ?_⟩
  rw [parts, String.toList_append, List.getLast?_map, hus]
  simp

/-- A path to a file ends in the name of that file. -/
theorem getLast?_of_place? {n : String} (h : t.place? path = some p) (hfile : t.fileAt p ≠ none)
    (hlast : (parts path).getLast? = some n) (hstill : isStill n = false) (hup : n ≠ "..") :
    p.getLast? = some n := by
  obtain ⟨ns, hns, hwalk⟩ := Option.bind_eq_some_iff.mp h
  obtain rfl := eq_target_of_walk? hwalk
  obtain ⟨rest, hparts, rfl⟩ := exists_parts_of_names? hns
  rcases List.eq_nil_or_concat rest with rfl | ⟨rest, m, rfl⟩
  · -- The path is the one of the directory of the tree.
    exact absurd rfl hfile
  · rw [List.concat_eq_append, ← List.append_assoc] at hparts
    rw [hparts, List.getLast?_concat] at hlast
    obtain rfl := Option.some.inj hlast
    have hkept : (rest ++ [m]).filter (!isStill ·) = rest.filter (!isStill ·) ++ [m] := by simp [hstill]
    rw [List.concat_eq_append, hkept, target_concat hup, List.getLast?_concat]

/-- A path with an ending leads to a file whose name has it. -/
theorem exists_getLast?_of_ending {start ending : String} {d : Char} (hslash : '/' ∉ ending.toList)
    (hd : ending.toList.getLast? = some d) (hdot : d ≠ '.') (h : t.place? (start ++ ending) = some p)
    (hfile : t.fileAt p ≠ none) : ∃ front, p.getLast? = some (front ++ ending) := by
  obtain ⟨front, hlast⟩ := exists_getLast?_parts start hslash
  have hchar : (front ++ ending).toList.getLast? = some d := by
    rw [String.toList_append, List.getLast?_append, hd]
    rfl
  have hne : ∀ s : String, s.toList.getLast? ≠ some d → front ++ ending ≠ s := by
    rintro s hs rfl
    exact hs hchar
  refine ⟨front, getLast?_of_place? h hfile hlast ?_ (hne ".." ?_)⟩
  · simp only [isStill, Bool.or_eq_false_iff, decide_eq_false_iff_not]
    exact ⟨hne "" (by simp), hne "." (by simp [hdot.symm])⟩
  · simp [hdot.symm]

end EdaParts.FileTree
