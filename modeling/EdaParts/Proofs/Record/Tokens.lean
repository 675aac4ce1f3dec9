import EdaParts.Footprint.Record
import EdaParts.Proofs.Text.Pieces
import EdaParts.Symbol.Record

/-!
# Lines and their records

A line of fields between tildes is read back as its fields, but for the blank ones. What a line says is told by the
parts it holds: tildes beyond one between two parts are seen by no reader of records.

* `Record.Holds` : a line with its parts; `Record.holds_iff` : these are the parts that are found in it;
* `Record.ofLine?_eq_some_iff`, `Record.ofLine?_eq_none_iff` : which record a line has, and which lines have none;
* `Record.parts_toLine`, `Record.ofLine?_toLine` : the parts and the record of a line of fields;
* `lines_told_by_parts` : lines and records undo each other, and lines of the same parts are read alike.
-/

namespace EdaParts

namespace Record

/-! ## The parts of a line -/

/-- The text can be a part of a line: it is not empty and has no tildes. -/
def IsPart (s : String) : Prop :=
  s ≠ "" ∧ separator ∉ s.toList

instance (s : String) : Decidable (IsPart s) :=
  inferInstanceAs (Decidable (s ≠ "" ∧ separator ∉ s.toList))

/-- The line holds these parts in this order, with a tilde after each of them that is not the last. More tildes may
stand between the parts and around them. -/
inductive Holds : List String → String → Prop
  | empty : Holds [] ""
  | tilde {ps : List String} {line : String} (h : Holds ps line) : Holds ps (String.singleton separator ++ line)
  | last {p : String} (hp : IsPart p) : Holds [p] p
  | part {p : String} {ps : List String} {line : String} (hp : IsPart p) (h : Holds ps line) :
    Holds (p :: ps) (p ++ String.singleton separator ++ line)

variable {p line : String} {ps : List String} {r : Record}

/-- A tilde divides the parts of a line. -/
theorem parts_append (s line : String) :
    parts (s ++ String.singleton separator ++ line) = parts s ++ parts line := by
  have hchars : (s ++ String.singleton separator ++ line).toList = s.toList ++ separator :: line.toList := by simp
  rw [parts, hchars, Text.pieces_append_sep, List.filter_append, List.map_append, parts, parts]

theorem parts_tilde (line : String) : parts (String.singleton separator ++ line) = parts line := by
  have hparts := parts_append "" line
  rwa [String.empty_append] at hparts

theorem parts_of_isPart (hp : IsPart p) : parts p = [p] := by
  rw [parts, Text.pieces_of_not_mem hp.2, List.filter_cons_of_pos (by simpa using hp.1), List.filter_nil,
    List.map_singleton, String.ofList_toList]

theorem Holds.parts_eq (h : Holds ps line) : parts line = ps := by
  induction h with
  | empty => rfl
  | tilde _ ih => rw [parts_tilde, ih]
  | last hp => exact parts_of_isPart hp
  | part hp _ ih => rw [parts_append, parts_of_isPart hp, ih, List.singleton_append]

/-- Every line holds its parts. -/
theorem holds_parts (line : String) : Holds (parts line) line := by
  by_cases htilde : separator ∈ line.toList
  · -- The first tilde ends the first part, or stands before all parts.
    obtain ⟨before, after, hchars, hbefore⟩ := List.eq_append_cons_of_mem htilde
    have hline : line = String.ofList before ++ String.singleton separator ++ String.ofList after :=
      String.toList_inj.mp (by simpa using hchars)
    have hafter := holds_parts (String.ofList after)
    by_cases hempty : before = []
    · have hfront : line = String.singleton separator ++ String.ofList after := by simpa [hempty] using hline
      rw [hfront, parts_tilde]
      exact .tilde hafter
    · have hpart : IsPart (String.ofList before) := ⟨by simpa using hempty, by simpa using hbefore⟩
      rw [hline, parts_append, parts_of_isPart hpart]
      exact .part hpart hafter
  · by_cases hempty : line = ""
    · rw [hempty]
      exact .empty
    · have hpart : IsPart line := ⟨hempty, htilde⟩
      rw [parts_of_isPart hpart]
      exact .last hpart
termination_by line.length
decreasing_by
  rw [← String.length_toList, ← String.length_toList, hchars, String.toList_ofList, List.length_append,
    List.length_cons]
  omega

/-- **The parts that a line holds** are those that are found in it. -/
theorem holds_iff : Holds ps line ↔ parts line = ps :=
  ⟨Holds.parts_eq, fun h => h ▸ holds_parts line⟩

instance (ps : List String) (line : String) : Decidable (Holds ps line) :=
  decidable_of_iff (parts line = ps) holds_iff.symm

theorem Holds.isPart (h : Holds ps line) : ∀ s ∈ ps, IsPart s := by
  induction h with
  | empty => exact List.forall_mem_nil _
  | tilde _ ih => exact ih
  | last hp => exact List.forall_mem_singleton.mpr hp
  | part hp _ ih => exact List.forall_mem_cons.mpr ⟨hp, ih⟩

theorem IsPart.exists_ne (hp : IsPart p) : ∃ ch ∈ p.toList, ch ≠ separator := by
  obtain ⟨ch, hch⟩ := List.exists_mem_of_ne_nil p.toList (by simpa using hp.1)
  exact ⟨ch, hch, fun h => hp.2 (h ▸ hch)⟩

/-- Lines of tildes hold nothing, and other lines do. -/
theorem Holds.eq_nil_iff (h : Holds ps line) : ps = [] ↔ ∀ ch ∈ line.toList, ch = separator := by
  induction h with
  | empty => simp
  | tilde _ ih => simpa using ih
  | last hp =>
    obtain ⟨ch, hch, hne⟩ := hp.exists_ne
    exact iff_of_false (List.cons_ne_nil _ _) fun h => hne (h ch hch)
  | part hp _ _ =>
    obtain ⟨ch, hch, hne⟩ := hp.exists_ne
    exact iff_of_false (List.cons_ne_nil _ _) fun h => hne (h ch (by simp [hch]))

/-! ## The record of a line -/

/-- **A line has a record** of the parts it holds, the first of them its tag. -/
theorem ofLine?_eq_some_iff : ofLine? line = some r ↔ Holds (r.tag :: r.fields) line := by
  obtain ⟨tag, fields⟩ := r
  rw [holds_iff, ofLine?]
  cases parts line <;> simp

/-- Lines of tildes, and no others, have no record. -/
theorem ofLine?_eq_none_iff : ofLine? line = none ↔ ∀ ch ∈ line.toList, ch = separator := by
  rw [← (holds_parts line).eq_nil_iff, ofLine?]
  cases parts line <;> simp

/-- Lines of the same parts have the same record. -/
theorem ofLine?_congr {line' : String} (h : Holds ps line) (h' : Holds ps line') : ofLine? line' = ofLine? line := by
  rw [ofLine?, ofLine?, h.parts_eq, h'.parts_eq]

/-- The parts of a line are its fields that are not blank. -/
theorem parts_toLine {r : Record} (hfree : ∀ s ∈ r.tag :: r.fields, separator ∉ s.toList) :
    parts r.toLine = (r.tag :: r.fields).filter (!·.isEmpty) := by
  have hpieces : Text.pieces separator r.toLine.toList = (r.tag :: r.fields).map String.toList := by
    rw [toLine, String.toList_ofList]
    exact Text.pieces_join (by simp) (by simpa using hfree)
  have hempty (s : String) : s.toList.isEmpty = s.isEmpty := by
    rw [Bool.eq_iff_iff]
    simp
  rw [parts, hpieces, List.filter_map, List.map_map]
  simp [Function.comp_def, hempty]

/-- **The record of a line** has the fields that are not blank. -/
theorem ofLine?_toLine {tag : String} {fields : List String} (htag : tag ≠ "")
    (hfree : ∀ s ∈ tag :: fields, separator ∉ s.toList) :
    ofLine? (toLine ⟨tag, fields⟩) = some ⟨tag, fields.filter (!·.isEmpty)⟩ := by
  rw [ofLine?, parts_toLine hfree, List.filter_cons_of_pos (by simpa using htag)]

/-- A record without blank fields is read back from its line. -/
theorem holds_toLine (h : ∀ s ∈ r.tag :: r.fields, IsPart s) : Holds (r.tag :: r.fields) r.toLine := by
  rw [holds_iff, parts_toLine fun s hs => (h s hs).2]
  exact List.filter_eq_self.mpr fun s hs => by simpa using (h s hs).1

end Record

/-! ## Lines read alike -/

open Record (IsPart Holds)

/-- **Lines are told by their parts.** A line has no record just if it is tildes only. The tag and the fields of its
record are parts, and the line made of them has the same record; every tag and fields that are parts come from a line in
this way. A line holds one list of parts, and lines that hold the same are read alike on boards and on sheets, with the
same notices. -/
theorem lines_told_by_parts (line : String) :
    (Record.ofLine? line = none ↔ ∀ ch ∈ line.toList, ch = Record.separator) ∧
    (∀ r, Record.ofLine? line = some r → (∀ s ∈ r.tag :: r.fields, IsPart s) ∧ Record.ofLine? r.toLine = some r) ∧
    (∀ r : Record, (∀ s ∈ r.tag :: r.fields, IsPart s) → Record.ofLine? r.toLine = some r) ∧
    (∃! ps, Holds ps line) ∧
    ∀ ps line', Holds ps line → Holds ps line' →
      (∀ c, Placement.ofLine c line' = Placement.ofLine c line) ∧
      ∀ frame, SymbolPlacement.ofLine frame line' = SymbolPlacement.ofLine frame line := by
  have hback (r : Record) (hr : ∀ s ∈ r.tag :: r.fields, IsPart s) : Record.ofLine? r.toLine = some r :=
    Record.ofLine?_eq_some_iff.mpr (Record.holds_toLine hr)
  refine ⟨Record.ofLine?_eq_none_iff, fun r h => ?_, hback, ⟨_, Record.holds_parts line, fun ps h => h.parts_eq.symm⟩,
    fun ps line' h h' => ?_⟩
  · have hparts := (Record.ofLine?_eq_some_iff.mp h).isPart
    exact ⟨hparts, hback r hparts⟩
  · have hrecord := Record.ofLine?_congr h h'
    refine ⟨fun c => ?_, fun frame => ?_⟩
    · rw [Placement.ofLine, Placement.ofLine, hrecord]
    · rw [SymbolPlacement.ofLine, SymbolPlacement.ofLine, hrecord]

/-- A circle is read alike with tildes before, between and behind its fields. -/
theorem lines_told_by_parts_circle :
    (Record.ofLine? "~~CIRCLE~0~~0~5~1~3~" = some ⟨"CIRCLE", ["0", "0", "5", "1", "3"]⟩ ∧
      Record.ofLine? (Record.toLine ⟨"CIRCLE", ["0", "0", "5", "1", "3"]⟩) =
        some ⟨"CIRCLE", ["0", "0", "5", "1", "3"]⟩) ∧
    (Holds ["CIRCLE", "0", "0", "5", "1", "3"] "~~CIRCLE~0~~0~5~1~3~" ∧
      Holds ["CIRCLE", "0", "0", "5", "1", "3"] "CIRCLE~0~0~5~1~3") ∧
    (∀ c, Placement.ofLine c "CIRCLE~0~0~5~1~3" = Placement.ofLine c "~~CIRCLE~0~~0~5~1~3~") ∧
    ∀ frame, SymbolPlacement.ofLine frame "CIRCLE~0~0~5~1~3" = SymbolPlacement.ofLine frame "~~CIRCLE~0~~0~5~1~3~" := by
  obtain ⟨-, hrecord, -, -, halike⟩ := lines_told_by_parts "~~CIRCLE~0~~0~5~1~3~"
  have hline : Record.ofLine? "~~CIRCLE~0~~0~5~1~3~" = some ⟨"CIRCLE", ["0", "0", "5", "1", "3"]⟩ := by decide
  have hholds : Holds ["CIRCLE", "0", "0", "5", "1", "3"] "~~CIRCLE~0~~0~5~1~3~" := by decide
  have hholds' : Holds ["CIRCLE", "0", "0", "5", "1", "3"] "CIRCLE~0~0~5~1~3" := by decide
  exact ⟨⟨hline, (hrecord _ hline).2⟩, ⟨hholds, hholds'⟩, halike _ _ hholds hholds'⟩

end EdaParts
