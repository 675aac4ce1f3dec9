import EdaParts.Proofs.Legacy.SymbolForm
import EdaParts.Proofs.Symbol.Words

/-!
# Columns of symbol lines

A reader of the legacy format parts a line at its white space and takes its words by position. Texts and the names and
numbers of pins stand bare among them, with tildes for their spaces. So a line has the words it should have if these are
all the white space there is; another blank parts the text.

* `Legacy.columns` : the words of a line; `Legacy.columns_eq` : they are those of its words, in order;
* `Legacy.columns_text`, `Legacy.columns_pin` : the words of the lines of texts and pins;
* `SymbolPlacement.columns_kept_iff` : when the lines of texts and pins keep their columns.
-/

namespace EdaParts

/-- The text has no white space but spaces. -/
def SpacesOnly (s : String) : Prop :=
  ∀ c ∈ s.toList, Text.isBlank c = true → c = ' '

instance (s : String) : Decidable (SpacesOnly s) :=
  List.decidableBAll (fun c => Text.isBlank c = true → c = ' ') s.toList

/-- Spaces are the only white space that is replaced. -/
theorem solid_tilded_iff (s : String) : Text.Solid (tilded s).toList ↔ SpacesOnly s := by
  by_cases hs : s = ""
  · subst hs
    exact iff_of_true (by decide) (by simp [SpacesOnly])
  · have htilded : (tilded s).toList = s.toList.map fun c => if c = ' ' then '~' else c := by
      rw [tilded, if_neg hs, String.toList_ofList]
    have hne : s.toList ≠ [] := by simpa using hs
    rw [htilded, Text.Solid, List.forall_mem_map, SpacesOnly]
    refine ⟨fun h c hc hblank => ?_, fun h => ⟨by simpa using hne, fun c hc => ?_⟩⟩
    · by_contra hspace
      have hsolid := h.2 c hc
      rw [if_neg hspace, hblank] at hsolid
      cases hsolid
    · split
      · decide
      · next hspace => exact Bool.eq_false_iff.mpr fun hblank => hspace (h c hc hblank)

/-- Other blanks than spaces stay where spaces become underscores. -/
theorem spacesOnly_substitute_iff (s : String) : SpacesOnly (Text.substitute ' ' ['_'] s) ↔ SpacesOnly s := by
  rw [Legacy.substitute_single, SpacesOnly, String.toList_ofList, List.forall_mem_map, SpacesOnly]
  refine forall₂_congr fun c _ => ?_
  split
  · next hc => exact iff_of_true (fun h => absurd h (by decide)) fun _ => hc
  · exact Iff.rfl

theorem Decimal.isBlank_of_isNumeralChar {c : Char} (h : isNumeralChar c = true) : Text.isBlank c = false := by
  rw [isNumeralChar, Bool.or_eq_true] at h
  rcases h with hdigit | hmem
  · have hbounds : 48 ≤ c.toNat ∧ c.toNat ≤ 57 := Char.isDigit_iff_toNat.mp hdigit
    simp only [Text.isBlank, Bool.or_eq_false_iff, Bool.and_eq_false_iff, decide_eq_false_iff_not, beq_eq_false_iff_ne]
    omega
  · have hall : ['-', '.', 'N', 'a', 'i', 'n', 'f'].all (fun c => !Text.isBlank c) = true := by decide
    simpa using List.all_eq_true.mp hall c (by simpa using hmem)

namespace Legacy

open Word

/-! ## Words of lines -/

/-- The words of a text, parted by white space of any kind. -/
def wordsIn (s : String) : List String := (Text.words s.toList).map String.ofList

/-- The words of a line as it is read. -/
def columns (l : Line) : List String := wordsIn l.print

/-- **The words of a line** are those of each of its words. -/
theorem columns_eq (l : Line) : columns l = l.flatMap fun w => wordsIn w.print := by
  induction l with
  | nil => rfl
  | cons w l ih =>
    cases l with
    | nil => rw [columns, print_line_singleton, List.flatMap_singleton]
    | cons v l =>
      rw [columns, wordsIn, toList_print_line_cons, Text.words_append_cons rfl, List.map_append, List.flatMap_cons,
        ← ih]
      rfl

theorem wordsIn_of_solid {s : String} (h : Text.Solid s.toList) : wordsIn s = [s] := by
  rw [wordsIn, Text.words_of_solid h, List.map_singleton, String.ofList_toList]

theorem solid_of_mem_wordsIn {s w : String} (h : w ∈ wordsIn s) : Text.Solid w.toList := by
  obtain ⟨cs, hcs, rfl⟩ := List.mem_map.mp h
  rw [String.toList_ofList]
  exact Text.solid_of_mem_words hcs

theorem wordsIn_integer (n : Int) : wordsIn n.repr = [n.repr] := by
  obtain ⟨hne, hnumeral⟩ := Decimal.isNumeral_toString_int n
  exact wordsIn_of_solid ⟨hne, fun c hc => Decimal.isBlank_of_isNumeralChar (hnumeral c hc)⟩

/-! ## Texts and pins -/

theorem columns_nil : columns [] = [] := rfl

theorem columns_cons (w : Word) (l : Line) : columns (w :: l) = wordsIn w.print ++ columns l := by
  rw [columns_eq, columns_eq, List.flatMap_cons]

theorem columns_integer (n : Int) (l : Line) : columns (integer n :: l) = n.repr :: columns l := by
  rw [columns_cons, print_integer, wordsIn_integer, List.singleton_append]

theorem columns_bare {s : String} (h : Text.Solid s.toList) (l : Line) : columns (bare s :: l) = s :: columns l := by
  rw [columns_cons, print_bare, wordsIn_of_solid h, List.singleton_append]

theorem columns_free (s : String) (l : Line) : columns (free s :: l) = wordsIn (tilded s) ++ columns l := by
  rw [columns_cons, print_free]

/-- The words of a text are those of its label between others. -/
theorem columns_text (part : Nat) (label : String) (position : MilPoint) (angle size : Int) (hidden : Bool) :
    columns (graphic part (.text label position angle size hidden)) =
      ["T", angle.repr, position.x.repr, position.y.repr, size.repr, if hidden then "1" else "0", (part : Int).repr,
        "0"] ++
        (wordsIn (tilded label) ++ ["Normal", "0", "C", "C"]) := by
  have hhidden : Text.Solid (if hidden then "1" else "0" : String).toList := by cases hidden <;> decide
  show columns (bare "T" :: integer angle :: integer position.x :: integer position.y :: integer size ::
    bare (if hidden then "1" else "0") :: integer part :: bare "0" :: free label ::
      [bare "Normal", bare "0", bare "C", bare "C"]) = _
  rw [columns_bare (by decide), columns_integer, columns_integer, columns_integer, columns_integer,
    columns_bare hhidden, columns_integer, columns_bare (by decide), columns_free]
  rfl

/-- The words of a pin are those of its name and its number before others. -/
theorem columns_pin (part : Nat) (p : Pin) :
    columns (graphic part (.pin p)) =
      "X" :: (wordsIn (tilded p.name) ++ (wordsIn (tilded p.number) ++
        [p.position.x.repr, p.position.y.repr, p.length.repr, pinOrientation p.orientation, pinTextSize.repr,
          pinTextSize.repr, (part : Int).repr, "0", pinType p.type])) := by
  have horientation : Text.Solid (pinOrientation p.orientation).toList := by cases p.orientation <;> decide
  have htype : Text.Solid (pinType p.type).toList := by cases p.type <;> decide
  show columns (bare "X" :: free p.name :: free p.number :: integer p.position.x :: integer p.position.y ::
    integer p.length :: bare (pinOrientation p.orientation) :: integer pinTextSize :: integer pinTextSize ::
      integer part :: bare "0" :: bare (pinType p.type) :: []) = _
  rw [columns_bare (by decide), columns_free, columns_free, columns_integer, columns_integer, columns_integer,
    columns_bare horientation, columns_integer, columns_integer, columns_integer, columns_bare (by decide),
    columns_bare htype, columns_nil]

/-- A text keeps its columns just if its label is one word. -/
theorem columns_text_iff (part : Nat) (label : String) (position : MilPoint) (angle size : Int) (hidden : Bool) :
    ((columns (graphic part (.text label position angle size hidden))).length = 13 ∧
      (columns (graphic part (.text label position angle size hidden)))[8]? = some (tilded label)) ↔
      SpacesOnly label := by
  rw [← solid_tilded_iff]
  constructor
  · rintro ⟨-, hword⟩
    exact solid_of_mem_wordsIn (List.mem_of_getElem? hword)
  · intro h
    rw [columns_text, wordsIn_of_solid h]
    exact ⟨rfl, rfl⟩

/-- A pin keeps its columns just if its name and its number are one word each. -/
theorem columns_pin_iff (part : Nat) (p : Pin) :
    ((columns (graphic part (.pin p))).length = 12 ∧ (columns (graphic part (.pin p)))[1]? = some (tilded p.name) ∧
      (columns (graphic part (.pin p)))[2]? = some (tilded p.number)) ↔ SpacesOnly p.name ∧ SpacesOnly p.number := by
  rw [← solid_tilded_iff, ← solid_tilded_iff]
  constructor
  · rintro ⟨-, hname, hnumber⟩
    exact ⟨solid_of_mem_wordsIn (List.mem_of_getElem? hname), solid_of_mem_wordsIn (List.mem_of_getElem? hnumber)⟩
  · rintro ⟨hname, hnumber⟩
    rw [columns_pin, wordsIn_of_solid hname, wordsIn_of_solid hnumber]
    exact ⟨rfl, rfl, rfl⟩

end Legacy

/-! ## Records -/

namespace SymbolPlacement

open Legacy (columns graphic)
open Reading

variable {frame : Frame} {p : SymbolPlacement} {line : String}

/-- **When lines keep their columns.** A text that is not skipped is written with thirteen words, its label as the
ninth, and a pin with twelve, its name and its number as the second and the third, just if there is no white space but
spaces in them: spaces become tildes, or underscores in names before. -/
theorem columns_kept_iff {fields : List String} (h : read frame line = .ok p) (part : Nat) :
    (Record.ofLine? line = some ⟨"T", fields⟩ → ∃ label g, fields[6]? = some label ∧ p.graphics = [g] ∧
      (((columns (graphic part g)).length = 13 ∧ (columns (graphic part g))[8]? = some (tilded label)) ↔
        SpacesOnly label)) ∧
    (Record.ofLine? line = some ⟨"P", fields⟩ → ∃ number name g, fields[2]? = some number ∧ fields[13]? = some name ∧
      p.graphics = [g] ∧
      (((columns (graphic part g)).length = 12 ∧
        (columns (graphic part g))[1]? = some (tilded (Text.substitute ' ' ['_'] name)) ∧
        (columns (graphic part g))[2]? = some (tilded number)) ↔ SpacesOnly name ∧ SpacesOnly number)) := by
  constructor
  · intro hrecord
    rw [value_of_record .text hrecord] at h
    obtain ⟨degrees, -, h⟩ := bind_eq_ok_iff.mp (yields_liftM.mp h)
    obtain ⟨x, -, h⟩ := bind_eq_ok_iff.mp h
    obtain ⟨y, -, h⟩ := bind_eq_ok_iff.mp h
    obtain ⟨size, -, h⟩ := bind_eq_ok_iff.mp h
    obtain ⟨label, hlabel, h⟩ := bind_eq_ok_iff.mp h
    obtain rfl := Except.ok.inj h
    exact ⟨label, _, Fields.text_eq_ok_iff.mp hlabel, rfl, Legacy.columns_text_iff ..⟩
  · intro hrecord
    rw [value_of_record .pin hrecord] at h
    obtain ⟨-, number, -, -, -, name, -, pin, -, hnumber, -, -, -, hname, hpinName, hpinNumber, -, -, rfl⟩ :=
      yields_pin h
    refine ⟨number, name, _, Fields.text_eq_ok_iff.mp hnumber, Fields.text_eq_ok_iff.mp hname, rfl, ?_⟩
    rw [← hpinName, ← hpinNumber, ← spacesOnly_substitute_iff name, ← hpinName]
    exact Legacy.columns_pin_iff part pin

def wordyText : String := "T~L~41~31~0~#0~7pt~two words"

def wordyPin : String := "P~show~0~A 1~10~20~180~id~0~10^^20^^M 10 20 h -10~#0~a~b~c~two words"

/-- A text of two words is written as one, and so are the name and the number of a pin. -/
theorem columns_kept_iff_twoWords :
    (∃ p g, read (.schematic .zero 10) wordyText = .ok p ∧ p.graphics = [g] ∧
      (columns (graphic 1 g)).length = 13 ∧ (columns (graphic 1 g))[8]? = some "two~words") ∧
    ∃ p g, read (.schematic .zero 10) wordyPin = .ok p ∧ p.graphics = [g] ∧
      (columns (graphic 1 g)).length = 12 ∧ (columns (graphic 1 g))[1]? = some "two_words" ∧
        (columns (graphic 1 g))[2]? = some "A~1" := by
  obtain ⟨p, hp⟩ : ∃ p, read (.schematic .zero 10) wordyText = .ok p := exists_of_isOk (by decide +kernel)
  obtain ⟨q, hq⟩ : ∃ q, read (.schematic .zero 10) wordyPin = .ok q := exists_of_isOk (by decide +kernel)
  obtain ⟨label, g, hlabel, hg, htext⟩ := (columns_kept_iff hp 1).1 rfl
  obtain ⟨number, name, k, hnumber, hname, hk, hpin⟩ := (columns_kept_iff hq 1).2 rfl
  obtain rfl := Option.some.inj hlabel
  obtain rfl := Option.some.inj hnumber
  obtain rfl := Option.some.inj hname
  exact ⟨⟨p, g, hp, hg, htext.mpr (by decide)⟩, q, k, hq, hk,
    hpin.mpr ⟨by decide, by decide⟩⟩

/-- A tab in a text is left as it is, and parts the text into two words. -/
theorem columns_parted_tab :
    (read (.schematic .zero 10) "T~L~41~31~0~#0~7pt~a\tb").toOption.map
      (·.graphics.map fun g => ((columns (graphic 1 g)).length, (columns (graphic 1 g)).drop 8)) =
        some [(14, ["a", "b", "Normal", "0", "C", "C"])] := by
  decide +kernel

end SymbolPlacement

end EdaParts
