import Mathlib
import EdaParts.Modern.Footprint
import EdaParts.Proofs.Modern.SymbolForm

/-!
# Footprints read back

A footprint is read from what its expression says: its name and description, how it is assembled, its texts,
one form for each primitive, and its model.

* `FootprintForm`, `FootprintForm.read?` : what can be read of a footprint;
* `Footprint.form` : what should be read of one;
* `read?_datum_footprint` : it is read of every footprint;
* `symbol_and_footprint_read_back` : so nothing of a symbol or a footprint is lost in its text.
-/

namespace EdaParts.Modern

open Datum Modern.Expr

/-! ## Forms -/

structure TextForm where
  role : TextRole
  text : String
  position : PrintedPoint
  layer : Layer
  deriving Repr, DecidableEq

inductive DrillForm where
  | round (diameter : String)
  | slot (width height : String)
  deriving Repr, DecidableEq

structure PadForm where
  number : String
  mounting : Mounting
  shape : PadShape
  position : PrintedPoint
  rotation : String
  size : PrintedPoint
  drill : Option DrillForm
  layers : List Layer
  outline : List PrintedPoint
  deriving Repr, DecidableEq

inductive PrimitiveForm where
  | line (start stop : PrintedPoint) (width : String) (layer : Layer)
  | arc (start mid stop : PrintedPoint) (width : String) (layer : Layer)
  | circle (center edge : PrintedPoint) (width : String) (layer : Layer)
  | rect (start stop : PrintedPoint) (width : String) (layer : Layer)
  | pad (pad : PadForm)
  deriving Repr, DecidableEq

structure ModelForm where
  path : String
  offset : PrintedTriple
  rotation : PrintedTriple
  deriving Repr, DecidableEq

/-- What stands in a footprint after its name. -/
inductive FootprintItem where
  | setting (key value : String)
  | side (layer : Layer)
  | description (text : String)
  | assembly (mounting : Mounting)
  | text (text : TextForm)
  | primitive (primitive : PrimitiveForm)
  | model (model : ModelForm)
  deriving Repr, DecidableEq

structure FootprintForm where
  name : String
  items : List FootprintItem
  deriving Repr, DecidableEq

/-! ## Reading -/

def layerOfName? (name : String) : Option Layer :=
  Layer.all.find? (·.name = name)

def layerAt? (ds : List Datum) : Option Layer :=
  (textAt? "layer" ds).bind layerOfName?

def widthAt? (ds : List Datum) : Option String :=
  (child? "stroke" ds).bind (wordAt? "width")

def roles : List (String × TextRole) :=
  [("reference", .reference), ("value", .value), ("user", .user)]

def TextForm.read? : List Datum → Option TextForm
  | .word role :: .text label :: rest =>
    return {
      role := ← roles.lookup (String.ofList role)
      text := String.ofList label
      position := ← pointAt? "at" rest
      layer := ← layerAt? rest }
  | _ => none

def DrillForm.ofParts? : List Datum → Option DrillForm
  | [.word diameter] => some (.round (String.ofList diameter))
  | [.word _, .word width, .word height] => some (.slot (String.ofList width) (String.ofList height))
  | _ => none

/-- The hole of a pad; there need not be one. -/
def DrillForm.read? (ds : List Datum) : Option (Option DrillForm) :=
  match child? "drill" ds with
  | none => some none
  | some parts => (DrillForm.ofParts? parts).map some

/-- The points of the outline of a pad; none need be there. -/
def outline? (ds : List Datum) : Option (List PrintedPoint) :=
  match child? "primitives" ds with
  | none => some []
  | some shapes => (child? "gr_poly" shapes).bind (pointsAt? "pts")

def mountings : List (String × Mounting) :=
  [("smd", .surface), ("thru_hole", .throughHole)]

def padShapes : List (String × PadShape) :=
  [("circle", .circle), ("rect", .rect), ("oval", .oval), ("custom", .custom)]

def PadForm.read? : List Datum → Option PadForm
  | .text number :: .word mounting :: .word shape :: rest => do
    let (position, rotation) ← (child? "at" rest).bind turned?
    let layers ← child? "layers" rest
    return {
      number := String.ofList number
      mounting := ← mountings.lookup (String.ofList mounting)
      shape := ← padShapes.lookup (String.ofList shape)
      position
      rotation
      size := ← pointAt? "size" rest
      drill := ← DrillForm.read? rest
      layers := ← layers.mapM fun d => d.text?.bind layerOfName?
      outline := ← outline? rest }
  | _ => none

def PrimitiveForm.read? (d : Datum) : Option PrimitiveForm :=
  match d.parts? with
  | some ("fp_line", ds) =>
    return .line (← pointAt? "start" ds) (← pointAt? "end" ds) (← widthAt? ds) (← layerAt? ds)
  | some ("fp_arc", ds) =>
    return .arc (← pointAt? "start" ds) (← pointAt? "mid" ds) (← pointAt? "end" ds) (← widthAt? ds)
      (← layerAt? ds)
  | some ("fp_circle", ds) =>
    return .circle (← pointAt? "center" ds) (← pointAt? "end" ds) (← widthAt? ds) (← layerAt? ds)
  | some ("fp_rect", ds) =>
    return .rect (← pointAt? "start" ds) (← pointAt? "end" ds) (← widthAt? ds) (← layerAt? ds)
  | some ("pad", ds) => return .pad (← PadForm.read? ds)
  | _ => none

def tripleAt? (head : String) (ds : List Datum) : Option PrintedTriple :=
  match (child? head ds).bind (child? "xyz") with
  | some [.word x, .word y, .word z] => some ⟨String.ofList x, String.ofList y, String.ofList z⟩
  | _ => none

def ModelForm.read? : List Datum → Option ModelForm
  | .text path :: rest =>
    return ⟨String.ofList path, ← tripleAt? "offset" rest, ← tripleAt? "rotate" rest⟩
  | _ => none

def assemblies : List (String × Mounting) :=
  [("smd", .surface), ("through_hole", .throughHole)]

def FootprintItem.read? (d : Datum) : Option FootprintItem :=
  match d.parts? with
  | some ("layer", _) => return .side (← layerAt? [d])
  | some ("descr", ds) => return .description (← onlyText? ds)
  | some ("attr", ds) => return .assembly (← (onlyWord? ds).bind (assemblies.lookup ·))
  | some ("fp_text", ds) => return .text (← TextForm.read? ds)
  | some ("model", ds) => return .model (← ModelForm.read? ds)
  | some ("version", ds) => return .setting "version" (← onlyWord? ds)
  | some ("generator", ds) => return .setting "generator" (← onlyWord? ds)
  | _ => return .primitive (← PrimitiveForm.read? d)

def FootprintForm.read? (d : Datum) : Option FootprintForm :=
  match d.parts? with
  | some ("footprint", .text name :: ds) =>
    return ⟨String.ofList name, ← ds.mapM FootprintItem.read?⟩
  | _ => none

end EdaParts.Modern

namespace EdaParts

/-! ## What should be read -/

open Modern

def BoardText.form (t : BoardText) : TextForm :=
  ⟨t.role, t.text, t.position.printed, t.layer⟩

def Drill.form : Drill → DrillForm
  | round d => .round (numberText d)
  | slot w h => .slot (numberText w) (numberText h)

/-- Only a custom pad has an outline of its own. -/
def Pad.form (p : Pad) : PadForm :=
  { number := p.number
    mounting := p.mounting
    shape := p.shape
    position := p.position.printed
    rotation := numberText p.rotation
    size := p.size.printed
    drill := p.drill.map Drill.form
    layers := p.layers
    outline := if p.shape = .custom then p.outline.map Point.printed else [] }

def Primitive.form : Primitive → PrimitiveForm
  | line start stop width l => .line start.printed stop.printed (numberText width) l
  | arc _ start mid stop _ width l => .arc start.printed mid.printed stop.printed (numberText width) l
  | circle center radius width l =>
    .circle center.printed (Point.printed ⟨center.x + radius, center.y⟩) (numberText width) l
  | rect start stop width l => .rect start.printed stop.printed (numberText width) l
  | pad p => .pad p.form

def ModelRef.form (m : ModelRef) : ModelForm :=
  ⟨m.path, m.offset.printed, m.rotation.printed⟩

def Footprint.form (f : Footprint) : FootprintForm :=
  { name := f.name
    items := [.setting "version" "20211014", .setting "generator" "easyeda_kiconv", .side .frontCopper,
      .description f.description] ++ f.assembly.toList.map .assembly ++ f.texts.map (.text ·.form) ++
      f.primitives.map (.primitive ·.form) ++ f.model.toList.map (.model ·.form) }

namespace Modern

open Datum Modern.Expr

/-! ## Footprints -/

@[simp] theorem point?_boardCoordinates (p : Point) :
    point? ((boardCoordinates p).map datum) = some p.printed :=
  point?_number _ _

@[simp] theorem turned?_boardCoordinates (p : Point) (x : Float) :
    turned? ((boardCoordinates p).map datum ++ [(number x).datum]) = some (p.printed, numberText x) :=
  turned?_number _ _ _

@[simp] theorem layerOfName?_name (l : Layer) : layerOfName? l.name = some l := by
  cases l <;> decide

@[simp] theorem layerAt?_layer (l : Layer) (ds : List Datum) :
    layerAt? ((layer l).datum :: ds) = some l := by
  simp [layerAt?, layer, textAt?, onlyText?]

@[simp] theorem layerAt?_list_cons {head : String} (h : head ≠ "layer") (items : List Expr)
    (ds : List Datum) : layerAt? ((list head items).datum :: ds) = layerAt? ds := by
  simp [layerAt?, textAt?, h.symm]

@[simp] theorem layerAt?_stroke_cons (width : Float) (ds : List Datum) :
    layerAt? ((stroke width).datum :: ds) = layerAt? ds :=
  layerAt?_list_cons (by simp) _ _

@[simp] theorem widthAt?_stroke (width : Float) (ds : List Datum) :
    widthAt? ((stroke width).datum :: ds) = some (numberText width) := by
  simp [widthAt?, stroke, wordAt?]

@[simp] theorem widthAt?_list_cons {head : String} (h : head ≠ "stroke") (items : List Expr)
    (ds : List Datum) : widthAt? ((list head items).datum :: ds) = widthAt? ds := by
  simp [widthAt?, h.symm]

theorem read?_datum_boardText (t : BoardText) :
    FootprintItem.read? (boardText t).datum = some (.text t.form) := by
  have hrole : roles.lookup (textRole t.role) = some t.role := by
    cases t.role <;> decide
  rw [FootprintItem.read?, boardText, parts?_list]
  simp [TextForm.read?, datum_atom, hrole, pointAt?, BoardText.form]

@[simp] theorem outline?_list_cons {head : String} (h : head ≠ "primitives") (items : List Expr)
    (ds : List Datum) : outline? ((list head items).datum :: ds) = outline? ds := by
  simp [outline?, h.symm]

@[simp] theorem ofParts?_round (d : Float) :
    DrillForm.ofParts? [(number d).datum] = some (.round (numberText d)) := by
  rw [number, datum_atom, DrillForm.ofParts?, String.ofList_toList]

@[simp] theorem ofParts?_slot (shape : String) (w h : Float) :
    DrillForm.ofParts? [(atom shape).datum, (number w).datum, (number h).datum] =
      some (.slot (numberText w) (numberText h)) := by
  rw [number, number, datum_atom, datum_atom, datum_atom, DrillForm.ofParts?, String.ofList_toList,
    String.ofList_toList]

theorem outline?_padOutline (points : List Point) :
    outline? ((padOutline points).map datum) = some (points.map Point.printed) := by
  have hpoints : ∀ ds, pointsAt? "pts" ((list "pts" (points.map fun p => list "xy" (boardCoordinates p))).datum
      :: ds) = some (points.map Point.printed) :=
    fun ds => pointsAt?_list_cons point?_boardCoordinates points
  simp [outline?, padOutline, hpoints]

/-- A pad is read with the outline that follows its layers. -/
theorem read?_padItems (p : Pad) {body : List Expr} {outline : List PrintedPoint}
    (hdrill : child? "drill" (body.map datum) = none)
    (houtline : outline? (body.map datum) = some outline) :
    PadForm.read? (([quoted p.number, atom (padMounting p.mounting), atom (padShape p.shape),
        list "at" (boardCoordinates p.position ++ [number p.rotation]),
        list "size" [number p.size.x, number p.size.y]] ++
      drill p.drill ++ [list "layers" (p.layers.map fun l => quoted l.name)] ++ body).map datum) =
      some { p.form with outline } := by
  have hmounting : mountings.lookup (padMounting p.mounting) = some p.mounting := by
    cases p.mounting <;> decide
  have hshape : padShapes.lookup (padShape p.shape) = some p.shape := by
    cases p.shape <;> decide
  have hlayer : ∀ l : Layer, (quoted l.name).datum.text?.bind layerOfName? = some l := by
    simp [text?]
  have hlayers : ((p.layers.map fun l => quoted l.name).map datum).mapM
      (fun d => d.text?.bind layerOfName?) = some p.layers := by
    rw [List.map_map, Text.mapM_map_eq_some (h := id) hlayer, List.map_id]
  rw [List.append_assoc, List.append_assoc, List.map_append]
  simp only [List.map_cons, List.map_nil, datum_atom (padMounting _), datum_atom (padShape _), datum_quoted,
    List.cons_append, List.nil_append, PadForm.read?, String.ofList_toList, hmounting, hshape]
  cases hhole : p.drill with
  | none =>
    simp [-List.map_map, DrillForm.read?, pointAt?, point?_number, drill, Pad.form, hlayers, houtline, hdrill,
      hhole, Point.printed]
  | some hole =>
    cases hole <;>
      simp [-List.map_map, DrillForm.read?, pointAt?, point?_number, drill, Pad.form, hlayers, houtline, hhole,
        Point.printed, Drill.form]

theorem read?_datum_pad (p : Pad) : PrimitiveForm.read? (pad p).datum = some (.pad p.form) := by
  rw [pad]
  split
  · next hcustom =>
    rw [Bool.and_eq_true, decide_eq_true_iff] at hcustom
    have houtline : p.form.outline = p.outline.map Point.printed := if_pos hcustom.1
    have hread := read?_padItems p (by simp [padOutline]) (outline?_padOutline p.outline)
    rw [← houtline] at hread
    rw [PrimitiveForm.read?, parts?_block]
    simp only [hread]
    rfl
  · next hplain =>
    have houtline : p.form.outline = [] := by
      by_cases hcustom : p.shape = .custom
      · have hnil : p.outline = [] := by simpa [hcustom] using hplain
        simp [Pad.form, hnil]
      · exact if_neg hcustom
    have hread := @read?_padItems p [] [] rfl rfl
    rw [← houtline, List.append_nil] at hread
    rw [PrimitiveForm.read?, parts?_list]
    simp only [hread]
    rfl

theorem read?_datum_primitive (p : Primitive) :
    PrimitiveForm.read? (primitive p).datum = some p.form := by
  cases p with
  | pad p => exact read?_datum_pad p
  | _ =>
    rw [primitive, PrimitiveForm.read?, parts?_list]
    simp [pointAt?, Primitive.form]

@[simp] theorem tripleAt?_triple (head : String) (t : Triple) (ds : List Datum) :
    tripleAt? head ((triple head t).datum :: ds) = some t.printed := by
  simp [tripleAt?, triple, number, datum_atom, Triple.printed]

theorem tripleAt?_list_cons {head key : String} (h : key ≠ head) (items : List Expr)
    (ds : List Datum) : tripleAt? key ((list head items).datum :: ds) = tripleAt? key ds := by
  simp [tripleAt?, h]

theorem mapM_model (m : Option ModelRef) :
    ((model m).map datum).mapM FootprintItem.read? = some (m.toList.map (.model ·.form)) := by
  cases m with
  | none => rfl
  | some m =>
    have hrotation : tripleAt? "rotate" [(triple "offset" m.offset).datum,
        (list "scale" [list "xyz" [atom "1", atom "1", atom "1"]]).datum,
        (triple "rotate" m.rotation).datum] = some m.rotation.printed := by
      rw [triple, tripleAt?_list_cons (by simp), tripleAt?_list_cons (by simp), tripleAt?_triple]
    simp [model, FootprintItem.read?, ModelForm.read?, hrotation, ModelRef.form]

theorem mapM_assembly (m : Option Mounting) :
    ((assembly m).map datum).mapM FootprintItem.read? = some (m.toList.map .assembly) := by
  cases m with
  | none => rfl
  | some m => cases m <;> simp [assembly, FootprintItem.read?, assemblies, List.lookup]

def primitiveHeads : List String := ["fp_line", "fp_arc", "fp_circle", "fp_rect", "pad"]

theorem parts?_primitive (p : Primitive) : ∃ head ∈ primitiveHeads, ∃ rest,
    (primitive p).datum.parts? = some (head, rest) := by
  cases p with
  | pad p =>
    refine ⟨"pad", by simp [primitiveHeads], ?_⟩
    rw [primitive, pad]
    split
    · exact ⟨_, parts?_block _ _ _⟩
    · exact ⟨_, parts?_list _ _⟩
  | _ => exact ⟨_, by simp [primitiveHeads], _, parts?_list _ _⟩

theorem read?_datum_item (p : Primitive) :
    FootprintItem.read? (primitive p).datum = some (.primitive p.form) := by
  obtain ⟨head, hhead, rest, hparts⟩ := parts?_primitive p
  rw [FootprintItem.read?, hparts, read?_datum_primitive]
  simp only [primitiveHeads, List.mem_cons, List.not_mem_nil, or_false] at hhead
  rcases hhead with rfl | rfl | rfl | rfl | rfl <;> rfl

/-- **A footprint is read** from what its expression says. -/
theorem read?_datum_footprint (f : Footprint) :
    FootprintForm.read? (footprint f).datum = some f.form := by
  have hversion : FootprintItem.read? version.datum = some (.setting "version" "20211014") := by
    have hnumber : Nat.repr 20211014 = "20211014" := by decide
    simp [FootprintItem.read?, version, hnumber]
  have hgenerator : FootprintItem.read? generator.datum = some (.setting "generator" "easyeda_kiconv") := by
    simp [FootprintItem.read?, generator]
  have hside : FootprintItem.read? (layer .frontCopper).datum = some (.side .frontCopper) := by
    have hlayer := layerAt?_layer .frontCopper []
    rw [layer] at hlayer ⊢
    simp [FootprintItem.read?, hlayer]
  have hdescription : FootprintItem.read? (list "descr" [quoted f.description]).datum =
      some (.description f.description) := by
    simp [FootprintItem.read?, onlyText?]
  have htexts : ((f.texts.map boardText).map datum).mapM FootprintItem.read? =
      some (f.texts.map (.text ·.form)) := by
    rw [List.map_map]
    exact Text.mapM_map_eq_some read?_datum_boardText f.texts
  have hprimitives : ((f.primitives.map primitive).map datum).mapM FootprintItem.read? =
      some (f.primitives.map (.primitive ·.form)) := by
    rw [List.map_map]
    exact Text.mapM_map_eq_some read?_datum_item f.primitives
  rw [FootprintForm.read?, footprint, parts?_block]
  simp only [List.cons_append, List.nil_append, List.map_cons, List.map_append, datum_quoted,
    List.mapM_cons, List.mapM_append, hversion, hgenerator, hside, hdescription, mapM_assembly, htexts,
    hprimitives, mapM_model, String.ofList_toList]
  rfl

/-! ## Texts -/

@[simp] theorem wellFormed_boardCoordinates (p : Point) : AllWellFormed (boardCoordinates p) := by
  simp [boardCoordinates]

@[simp] theorem wellFormed_layer (l : Layer) : (layer l).WellFormed := by
  simp +decide [layer]

@[simp] theorem wellFormed_stroke (width : Float) : (stroke width).WellFormed := by
  simp +decide [stroke]

theorem wellFormed_boardText (t : BoardText) : (boardText t).WellFormed := by
  unfold boardText
  cases t.role <;> simp +decide

theorem wellFormed_drill (d : Option Drill) : AllWellFormed (drill d) := by
  cases d with
  | none => trivial
  | some d => cases d <;> simp +decide [drill]

theorem wellFormed_padOutline (points : List Point) : AllWellFormed (padOutline points) := by
  have hpoints : AllWellFormed (points.map fun p => list "xy" (boardCoordinates p)) := by
    rw [allWellFormed_iff]
    intro e he
    obtain ⟨p, -, rfl⟩ := List.mem_map.mp he
    exact ⟨by decide, wellFormed_boardCoordinates p⟩
  simp +decide [padOutline, hpoints]

theorem wellFormed_pad (p : Pad) : (pad p).WellFormed := by
  have hlayers : AllWellFormed (p.layers.map fun l => quoted l.name) := by
    rw [allWellFormed_iff]
    intro e he
    obtain ⟨l, -, rfl⟩ := List.mem_map.mp he
    trivial
  have hitems : AllWellFormed ([quoted p.number, atom (padMounting p.mounting), atom (padShape p.shape),
      list "at" (boardCoordinates p.position ++ [number p.rotation]),
      list "size" [number p.size.x, number p.size.y]] ++
      drill p.drill ++ [list "layers" (p.layers.map fun l => quoted l.name)]) := by
    cases p.mounting <;> cases p.shape <;>
      simp +decide [wellFormed_drill, hlayers]
  unfold pad
  split
  · exact ⟨by decide, hitems, wellFormed_padOutline p.outline⟩
  · exact ⟨by decide, hitems⟩

theorem wellFormed_primitive (p : Primitive) : (primitive p).WellFormed := by
  cases p with
  | pad p => exact wellFormed_pad p
  | _ => simp +decide [primitive]

theorem wellFormed_model (m : Option ModelRef) : AllWellFormed (model m) := by
  cases m with
  | none => trivial
  | some m => simp +decide [model, triple]

theorem wellFormed_assembly (m : Option Mounting) : AllWellFormed (assembly m) := by
  cases m with
  | none => trivial
  | some m => cases m <;> simp +decide [assembly]

/-- **The expression of a footprint** can be printed as one. -/
theorem wellFormed_footprint (f : Footprint) : (footprint f).WellFormed := by
  have htexts : AllWellFormed (f.texts.map boardText) := by
    rw [allWellFormed_iff]
    intro e he
    obtain ⟨t, -, rfl⟩ := List.mem_map.mp he
    exact wellFormed_boardText t
  have hprimitives : AllWellFormed (f.primitives.map primitive) := by
    rw [allWellFormed_iff]
    intro e he
    obtain ⟨p, -, rfl⟩ := List.mem_map.mp he
    exact wellFormed_primitive p
  simp +decide [footprint, version, generator, htexts, hprimitives,
    wellFormed_model, wellFormed_assembly]

/-- **Nothing is lost in a text.** The entry of a symbol and the file of a footprint are one list each, on
lines of their own, whatever is in their texts. From that list the symbol or the footprint is read again,
with its texts as they are and its numbers as they are printed. -/
theorem symbol_and_footprint_read_back :
    (∀ s : Symbol, (∃ items, IsDocument (symbolEntry s) items) ∧
      (readBack? (symbolEntry s)).bind SymbolForm.read? = some s.form) ∧
    (∀ f : Footprint, (∃ items, IsDocument (footprintFile f) items) ∧
      (readBack? (footprintFile f)).bind FootprintForm.read? = some f.form) := by
  constructor
  · intro s
    have hdocument := isDocument_block (wellFormed_symbol s)
    refine ⟨⟨_, hdocument⟩, ?_⟩
    have hread : readBack? (symbolEntry s) = some (symbol s).datum := hdocument.readBack?
    rw [hread, Option.bind_some, read?_datum_symbol]
  · intro f
    have hdocument := isDocument_block (wellFormed_footprint f)
    refine ⟨⟨_, hdocument⟩, ?_⟩
    have hread : readBack? (footprintFile f) = some (footprint f).datum := hdocument.readBack?
    rw [hread, Option.bind_some, read?_datum_footprint]

end Modern

end EdaParts
