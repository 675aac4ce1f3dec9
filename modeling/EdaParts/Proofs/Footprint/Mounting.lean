import EdaParts.Proofs.Component.Skipping
import EdaParts.Proofs.Footprint.Agreement
import EdaParts.Proofs.Footprint.Centering

/-!
# How a footprint is mounted

The hole field of a pad record alone decides how its pad is mounted, and the pads of a footprint decide
together how the part is assembled. Both kinds of files say that in one place: modern ones in an item of
its own, legacy ones on the line behind their heading.

* `Pad.MountedBy` : the pad is what a record asks for by its hole;
* `Placement.padFields` : the fields of the lines that are pads and are not skipped;
* `Board.forall₂_mountedBy` : the pads of a finished board, record by record;
* `Footprint.attribute?` : what the file of a footprint says about its assembly;
* `Component.generateFootprint_mounting` : how a generated footprint is mounted.
-/

namespace EdaParts

open Reading

/-! ## One pad -/

/-- The fields are those of a pad with a hole. -/
def Fields.HasHole (f : Fields) : Prop :=
  ∃ hole, f.number 7 = .ok hole ∧ hole > 0

namespace Pad

/-- The pad goes through all layers, and is drilled. -/
structure IsDrilled (p : Pad) : Prop where
  mounting : p.mounting = .throughHole
  layers : p.layers = [.allCopper, .allMask]
  drill : p.drill.isSome = true

/-- The pad lies on one side of the board, and is not drilled. -/
structure IsFlat (p : Pad) : Prop where
  mounting : p.mounting = .surface
  layers : p.layers = [.frontCopper, .frontPaste, .frontMask] ∨ p.layers = [.backCopper, .backPaste, .backMask]
  drill : p.drill = none

/-- The pad is mounted as the hole of its record asks for. -/
def MountedBy (f : Fields) (p : Pad) : Prop :=
  ∃ hole, f.number 7 = .ok hole ∧ (hole > 0 ∧ p.IsDrilled ∨ ¬ hole > 0 ∧ p.IsFlat)

variable {c : FootprintContext} {f : Fields} {p : Pad}

theorem mountedBy_of_isPadOf (h : Placement.IsPadOf c f p) : MountedBy f p := by
  obtain ⟨hole, hnumber, hmounting, hlayers, hdrill⟩ := h.hole
  refine ⟨hole, hnumber, ?_⟩
  by_cases hpos : hole > 0
  · rw [if_pos hpos] at hmounting hlayers hdrill
    obtain ⟨d, -, hdrill⟩ := hdrill
    exact .inl ⟨hpos, hmounting, hlayers, by rw [hdrill]; rfl⟩
  · rw [if_neg hpos] at hmounting hlayers hdrill
    refine .inr ⟨hpos, hmounting, ?_, hdrill⟩
    split at hlayers
    · exact .inr hlayers
    · exact .inl hlayers

theorem MountedBy.mounting_eq_iff (h : MountedBy f p) : p.mounting = .throughHole ↔ f.HasHole := by
  obtain ⟨hole, hnumber, ⟨hpos, hdrilled⟩ | ⟨hnot, hflat⟩⟩ := h
  · exact iff_of_true hdrilled.mounting ⟨hole, hnumber, hpos⟩
  · refine iff_of_false (fun h => by cases hflat.mounting.symm.trans h) ?_
    rintro ⟨hole', hnumber', hpos⟩
    obtain rfl := Except.ok.inj (hnumber.symm.trans hnumber')
    exact hnot hpos

/-- Where a pad stands does not matter. -/
theorem MountedBy.move (h : MountedBy f p) (q : Point) : MountedBy f { p with position := q } := by
  obtain ⟨hole, hnumber, ⟨hpos, hdrilled⟩ | ⟨hnot, hflat⟩⟩ := h
  · exact ⟨hole, hnumber, .inl ⟨hpos, hdrilled.mounting, hdrilled.layers, hdrilled.drill⟩⟩
  · exact ⟨hole, hnumber, .inr ⟨hnot, hflat.mounting, hflat.layers, hflat.drill⟩⟩

end Pad

/-! ## The pads of a board -/

namespace Placement

variable {c : FootprintContext} {p : Placement} {line : String} {lines : List String}

/-- The fields of a line, if it is a pad that is not skipped. -/
def padFields? (c : FootprintContext) (line : String) : Option Fields :=
  ((Record.ofLine? line).filter fun r => r.tag = "PAD" && (read c line).isOk).map fun r => ⟨r.tag, r.fields⟩

/-- The fields of the pads among the lines that are not skipped, in order. -/
def padFields (c : FootprintContext) (lines : List String) : List Fields :=
  lines.filterMap (padFields? c)

theorem pad?_segments (width : Float) (layer : Layer) (nodes : List Point) :
    (segments width layer nodes).filterMap Primitive.pad? = [] := by
  induction nodes with
  | nil => rfl
  | cons p nodes ih =>
    cases nodes with
    | nil => rfl
    | cons q nodes => exact ih

/-- A pad places one pad, and a record of another kind none. -/
theorem pads_of_yields {kind : FootprintKind} {f : Fields} (h : (ofKind c kind f).Yields p) :
    (kind = .pad ∧ ∃ drawn : Pad, p.primitives.filterMap Primitive.pad? = [drawn] ∧ drawn.MountedBy f) ∨
      kind ≠ .pad ∧ p.primitives.filterMap Primitive.pad? = [] := by
  cases kind with
  | pad =>
    obtain ⟨drawn, hdrawn, rfl⟩ := yields_pad h
    exact .inl ⟨rfl, drawn, rfl, Pad.mountedBy_of_isPadOf hdrawn⟩
  | track =>
    obtain ⟨width, layer, vertices, -, -, rfl⟩ := yields_track h
    exact .inr ⟨nofun, pad?_segments _ layer _⟩
  | _ =>
    refine .inr ⟨nofun, List.filterMap_eq_nil_iff.mpr fun q hq => ?_⟩
    have haside := (aside_of_not_widens rfl h).2 q hq
    cases q with
    | pad _ => cases haside
    | _ => rfl

/-- A line that is not skipped places the pad of its record, or none if it is not a pad. -/
theorem forall₂_mountedBy_line (c : FootprintContext) (line : String) :
    List.Forall₂ Pad.MountedBy (padFields? c line).toList
      ((read c line).toOption.toList.flatMap fun p => p.primitives.filterMap Primitive.pad?) := by
  cases hread : read c line with
  | error skip =>
    have hnone : padFields? c line = none := by
      unfold padFields?
      rw [hread]
      cases Record.ofLine? line <;> simp [Except.isOk, Except.toBool]
    rw [hnone]
    exact .nil
  | ok p =>
    obtain ⟨kind, fields, hrecord, hyields⟩ := read_eq_ok_iff.mp hread
    have hfields : padFields? c line = if kind = .pad then some ⟨kind.tag, fields⟩ else none := by
      unfold padFields?
      rw [hread, hrecord]
      cases kind <;> rfl
    rw [hfields]
    rcases pads_of_yields hyields with ⟨rfl, drawn, hpads, hmounted⟩ | ⟨hkind, hpads⟩
    · rw [if_pos rfl]
      simpa [Except.toOption, hpads] using hmounted
    · rw [if_neg hkind]
      simp [Except.toOption, hpads]

theorem forall₂_mountedBy_accepted (c : FootprintContext) (lines : List String) :
    List.Forall₂ Pad.MountedBy (padFields c lines)
      (((accepted c lines).flatMap (·.primitives)).filterMap Primitive.pad?) := by
  induction lines with
  | nil => exact .nil
  | cons line lines ih =>
    have hfields : padFields c (line :: lines) = (padFields? c line).toList ++ padFields c lines := by
      rw [padFields, List.filterMap_cons]
      cases padFields? c line <;> rfl
    have hline := forall₂_mountedBy_line c line
    rw [hfields, accepted_cons, List.flatMap_append, List.filterMap_append]
    rw [← List.filterMap_flatMap] at hline
    exact List.rel_append hline ih

end Placement

namespace Board

/-- **The pads of a finished board**, each against the record that asks for it. -/
theorem forall₂_mountedBy (c : FootprintContext) (lines : List String) (name : String) :
    List.Forall₂ Pad.MountedBy (Placement.padFields c lines)
      ((ofLines c lines).value.finish name).pads := by
  have hmove : ∀ (v : Point) (q : Primitive),
      (q.translate v).pad? = q.pad?.map fun p => { p with position := p.position + v } := by
    intro v q
    cases q <;> rfl
  have haccepted := Placement.forall₂_mountedBy_accepted c lines
  rw [← primitives_ofLines] at haccepted
  simp only [Footprint.pads, finish, List.filterMap_map, Function.comp_def, hmove]
  rw [← List.map_filterMap, List.forall₂_map_right_iff]
  exact haccepted.imp fun f p h => h.move _

end Board

/-! ## The assembly of a footprint -/

namespace Footprint

variable {f : Footprint} {fs : List Fields}

theorem assembly_eq_none_iff : f.assembly = none ↔ f.pads = [] := by
  unfold assembly
  cases f.pads with
  | nil => simp
  | cons p ps => split <;> simp

theorem assembly_eq_throughHole_iff (h : List.Forall₂ Pad.MountedBy fs f.pads) :
    f.assembly = some .throughHole ↔ ∃ g ∈ fs, g.HasHole := by
  have hany : f.assembly = some .throughHole ↔ ∃ p ∈ f.pads, p.mounting = .throughHole := by
    unfold assembly
    split
    · next hdrilled => simpa using hdrilled
    · next hnone =>
      refine iff_of_false ?_ (by simpa using hnone)
      split <;> simp
  rw [hany]
  generalize f.pads = pads at h
  induction h with
  | nil => simp
  | cons hmounted _ ih => simp only [List.mem_cons, exists_eq_or_imp, hmounted.mounting_eq_iff, ih]

/-- **How a part is assembled**, from the holes of its pads. -/
theorem assembly_iff (h : List.Forall₂ Pad.MountedBy fs f.pads) :
    (f.assembly = some .throughHole ↔ ∃ g ∈ fs, g.HasHole) ∧
    (f.assembly = some .surface ↔ fs ≠ [] ∧ ¬ ∃ g ∈ fs, g.HasHole) ∧
    (f.assembly = none ↔ fs = []) := by
  have hthrough := assembly_eq_throughHole_iff h
  have hnone : f.assembly = none ↔ fs = [] := by
    rw [assembly_eq_none_iff, ← List.length_eq_zero_iff, ← List.length_eq_zero_iff, h.length_eq]
  refine ⟨hthrough, ?_, hnone⟩
  rw [← hthrough, ne_eq, ← hnone]
  rcases f.assembly with _ | (_ | _) <;> simp

end Footprint

/-! ## What files say -/

namespace Legacy

open Word

/-- The mounting on the line that a text begins with, if it is that of the attribute. -/
def mountingAt? (rest : List Char) : Option Mounting :=
  if "At STD\n".toList.isPrefixOf rest then some .throughHole
  else if "At SMD\n".toList.isPrefixOf rest then some .surface
  else none

theorem toList_footprintFile (f : Footprint) : (footprintFile f).toList =
    (print (heading f)).toList ++ (print (itemLines f ++ moduleEnd f)).toList := by
  rw [footprintFile, footprint_eq, toList_print_append]

/-- Behind the heading stands the attribute, or else a text. -/
theorem mountingAt?_items (f : Footprint) (htexts : f.texts ≠ []) :
    mountingAt? (print (itemLines f ++ moduleEnd f)).toList = f.assembly := by
  unfold itemLines
  cases f.assembly with
  | some m =>
    have hline : (Line.print [bare "At", bare (mounting m)]).toList = "At ".toList ++ (mounting m).toList := by
      cases m <;> decide
    simp only [assembly, List.cons_append, List.nil_append, toList_print_cons, hline]
    cases m <;> rfl
  | none =>
    obtain ⟨t, ts, hcons⟩ := List.exists_cons_of_ne_nil htexts
    simp only [assembly, hcons, List.map_cons, List.cons_append, List.nil_append, toList_print_cons, boardText,
      boardCoordinates, toList_print_line_cons]
    cases t.role <;> rfl

end Legacy

namespace Footprint

/-- What a file says about the assembly of a part, if it can be read: in a modern one the only item of its
kind, in a legacy one the line behind the heading. -/
def attribute? (f : Footprint) (text : String) : Schema → Option (Option Mounting)
  | .legacy => (text.toList.dropPrefix? (Legacy.print (Legacy.heading f)).toList).map Legacy.mountingAt?
  | .modern =>
    ((Modern.readBack? text).bind Modern.FootprintForm.read?).bind fun form =>
      match form.items.filterMap Modern.FootprintItem.assembly? with
      | [] => some none
      | [m] => some (some m)
      | _ => none

theorem attribute?_render (f : Footprint) (htexts : f.texts ≠ []) (schema : Schema) :
    f.attribute? (f.render schema) schema = some f.assembly := by
  cases schema with
  | legacy =>
    have hdrop : (Legacy.footprintFile f).toList.dropPrefix? (Legacy.print (Legacy.heading f)).toList =
        some (Legacy.print (Legacy.itemLines f ++ Legacy.moduleEnd f)).toList := by
      rw [List.dropPrefix?_eq_some_iff]
      exact ⟨_, Legacy.toList_footprintFile f, BEq.rfl⟩
    simp only [render, attribute?, hdrop, Option.map_some, Legacy.mountingAt?_items f htexts]
  | modern =>
    have hread : Modern.readBack? (Modern.footprintFile f) = some (Modern.footprint f).datum :=
      (Modern.isDocument_block (Modern.wellFormed_footprint f)).readBack?
    have hitems : f.form.items.filterMap Modern.FootprintItem.assembly? = f.assembly.toList := by
      rw [filterMap_form]
      simp only [Modern.FootprintItem.assembly?, List.filterMap_none, List.append_nil]
      exact List.filterMap_some
    simp only [render, attribute?, hread, Option.bind_some, Modern.read?_datum_footprint, hitems]
    cases f.assembly <;> rfl

end Footprint

/-! ## Generated footprints -/

namespace Component

/-- The fields of the pads among the records of a footprint that are not skipped. -/
def padFields (c : Component) (r : Option Resolver) : List Fields :=
  match c.footprint with
  | some source => Placement.padFields ⟨.board source.origin, r⟩ source.shapes
  | none => []

/-- **How a generated footprint is mounted.** Each pad record that is not skipped draws one pad, through the
board if its hole is positive and on one side of it if not. The file says that the part has through holes if
one of these records has a positive hole, that it lies on the surface if there are such records and none has
one, and nothing if there are none. -/
theorem generateFootprint_mounting (c : Component) (o : Options) (r : Option Resolver) {text : String}
    (htext : (c.generateFootprint o r).run.value = .ok text) :
    ∃ drawing : Footprint, drawing.name = c.info.footprintName ∧ text = drawing.render o.schema ∧
      List.Forall₂ Pad.MountedBy (c.padFields r) drawing.pads ∧
      ∃ told, drawing.attribute? text o.schema = some told ∧
        (told = some .throughHole ↔ ∃ f ∈ c.padFields r, f.HasHole) ∧
        (told = some .surface ↔ c.padFields r ≠ [] ∧ ¬ ∃ f ∈ c.padFields r, f.HasHole) ∧
        (told = none ↔ c.padFields r = []) := by
  rw [value_generateFootprint] at htext
  split at htext
  · cases htext
  · cases htext
  · next source _ hsource =>
    split at htext
    · cases htext
    · obtain rfl := Except.ok.inj htext
      have hmounted := Board.forall₂_mountedBy ⟨.board source.origin, r⟩ source.shapes c.info.footprintName
      rw [padFields, hsource]
      exact ⟨_, rfl, rfl, hmounted, _, Footprint.attribute?_render _ (List.cons_ne_nil _ _) o.schema,
        Footprint.assembly_iff hmounted⟩

/-- Two pads on the surface, a track, a pad that is skipped although it has a hole, and one with a hole. -/
def socket : Component :=
  ⟨{ footprintName := "SOCKET" }, none,
    some ⟨["PAD~POLYGON~10~10~4~4~1~1~0~8 8 12 8 10 12", "TRACK~1~1~10 20 30 40",
      "PAD~POLYGON~20~10~4~4~2~2~0~18 8 22 8 20 12", "PAD~ROUND~x~10~4~4~1~3~2",
      "PAD~ELLIPSE~30~10~4~4~11~3~1"], .zero⟩⟩

deriving instance DecidableEq for Fields

theorem padFields_socket : socket.padFields none =
    [⟨"PAD", ["POLYGON", "10", "10", "4", "4", "1", "1", "0", "8 8 12 8 10 12"]⟩,
      ⟨"PAD", ["POLYGON", "20", "10", "4", "4", "2", "2", "0", "18 8 22 8 20 12"]⟩,
      ⟨"PAD", ["ELLIPSE", "30", "10", "4", "4", "11", "3", "1"]⟩] := by
  decide +kernel

/-- One hole makes it a part with through holes, in both formats. -/
theorem generateFootprint_mounting_socket :
    (∃ (text : String) (drawing : Footprint),
      (socket.generateFootprint { schema := .legacy } none).run.value = .ok text ∧
        drawing.attribute? text .legacy = some (some .throughHole)) ∧
    ∃ (text : String) (drawing : Footprint),
      (socket.generateFootprint { schema := .modern } none).run.value = .ok text ∧
        drawing.attribute? text .modern = some (some .throughHole) := by
  have hhole : ∃ f ∈ socket.padFields none, f.HasHole := by
    rw [padFields_socket]
    refine ⟨_, List.mem_cons_of_mem _ (List.mem_cons_of_mem _ List.mem_cons_self), 1, ?_, ?_⟩
    · decide +kernel
    · decide +kernel
  have htells (schema : Schema) : ∃ (text : String) (drawing : Footprint),
      (socket.generateFootprint { schema } none).run.value = .ok text ∧
        drawing.attribute? text schema = some (some .throughHole) := by
    have hvalid : ({ schema } : Options).validate = .ok () := Options.validate_default
    obtain ⟨text, htext⟩ : ∃ text, (socket.generateFootprint { schema } none).run.value = .ok text := by
      rw [value_generateFootprint, hvalid]
      exact ⟨_, if_neg (by decide)⟩
    obtain ⟨drawing, -, -, -, told, htold, hthrough, -⟩ := generateFootprint_mounting socket _ none htext
    rw [hthrough.mpr hhole] at htold
    exact ⟨text, drawing, htext, htold⟩
  exact ⟨htells .legacy, htells .modern⟩

end Component

end EdaParts
