import EdaParts.Proofs.Modern.FootprintForm
import EdaParts.Proofs.Legacy.FootprintForm

/-!
# The two files of a footprint

Both formats show one drawing. What is read of the legacy file is held against what is read of the modern
one: names and texts are the same but for quotes, points, widths and holes are printed alike, and
layers go by their numbers.

* `DrawnAs`, `SamePad`, `SameText`, `SameModel` : what shows the same thing;
* `SameDrawing` : what shows the same footprint;
* `Footprint.files_agree` : the two files of a footprint do.
-/

namespace EdaParts

/-! ## The same things -/

/-- No hole is one of no size, and a long one is as wide as its slot. -/
inductive SameHole : Option Modern.DrillForm → Legacy.DrillForm → Prop
  | none : SameHole none ⟨"0", none⟩
  | round (diameter : String) : SameHole (some (.round diameter)) ⟨diameter, none⟩
  | slot (width height : String) :
    SameHole (some (.slot width height)) ⟨width, some (width, height)⟩

/-- Two pads in one place. A bit of the mask is set if it is in the mask of a layer. -/
structure SamePad (p : Modern.PadForm) (q : Legacy.PadForm) : Prop where
  number : q.number = apostrophed p.number
  mounting : q.mounting = p.mounting
  shape : q.shape = Legacy.padShape p.shape
  position : q.position = p.position
  size : q.size = p.size
  hole : SameHole p.drill q.drill
  mask : ∀ i, q.mask.testBit i = p.layers.any fun l => l.mask.testBit i

/-- What a primitive is drawn as. The sides of a rectangle go round its corners, each from where the last
one ends. -/
inductive DrawnAs : Modern.PrimitiveForm → List Legacy.FootprintItem → Prop
  | line (start stop : PrintedPoint) (width : String) (l : Layer) :
    DrawnAs (.line start stop width l) [.segment start stop width l.number]
  | rect (start stop : PrintedPoint) (width : String) (l : Layer) :
    DrawnAs (.rect start stop width l)
      [.segment start ⟨stop.x, start.y⟩ width l.number,
        .segment ⟨stop.x, start.y⟩ stop width l.number,
        .segment stop ⟨start.x, stop.y⟩ width l.number,
        .segment ⟨start.x, stop.y⟩ start width l.number]
  | circle (center edge : PrintedPoint) (width : String) (l : Layer) :
    DrawnAs (.circle center edge width l) [.circle center edge width l.number]
  | arc (center start mid stop : PrintedPoint) (angle : Int) (width : String) (l : Layer) :
    DrawnAs (.arc start mid stop width l) [.arc center start angle width l.number]
  | pad {p : Modern.PadForm} {q : Legacy.PadForm} (same : SamePad p q) : DrawnAs (.pad p) [.pad q]

structure SameText (t : Modern.TextForm) (u : Legacy.TextForm) : Prop where
  role : u.role = t.role
  text : u.text = apostrophed t.text
  position : u.position = t.position
  layer : u.layer = t.layer.number

/-- The offsets are in different units. -/
structure SameModel (m : Modern.ModelForm) (n : Legacy.ModelForm) : Prop where
  path : n.path = apostrophed m.path
  rotation : n.rotation = m.rotation

/-! ## What is read, by kind -/

namespace Modern.FootprintItem

def description? : FootprintItem → Option String
  | .description label => some label
  | _ => none

def assembly? : FootprintItem → Option Mounting
  | .assembly mounting => some mounting
  | _ => none

def text? : FootprintItem → Option TextForm
  | .text t => some t
  | _ => none

def primitive? : FootprintItem → Option PrimitiveForm
  | .primitive p => some p
  | _ => none

def model? : FootprintItem → Option ModelForm
  | .model m => some m
  | _ => none

end Modern.FootprintItem

namespace Legacy.FootprintItem

def assembly? : FootprintItem → Option Mounting
  | .assembly mounting => some mounting
  | _ => none

def text? : FootprintItem → Option TextForm
  | .text t => some t
  | _ => none

def model? : FootprintItem → Option ModelForm
  | .model m => some m
  | _ => none

/-- What is on the board, texts left out. -/
def isDrawn : FootprintItem → Bool
  | .segment .. | .circle .. | .arc .. | .pad _ => true
  | .assembly _ | .text _ | .model _ => false

theorem eq_none_of_isDrawn {i : FootprintItem} (hi : i.isDrawn = true) :
    i.assembly? = none ∧ i.text? = none ∧ i.model? = none := by
  cases i with
  | assembly _ | text _ | model _ => cases hi
  | _ => exact ⟨rfl, rfl, rfl⟩

end Legacy.FootprintItem

/-- The same footprint. What is drawn falls into groups in order, one for each primitive. -/
structure SameDrawing (m : Modern.FootprintForm) (l : Legacy.FootprintForm) : Prop where
  name : l.name = m.name
  description : m.items.filterMap Modern.FootprintItem.description? = [l.description]
  assembly : m.items.filterMap Modern.FootprintItem.assembly? =
    l.items.filterMap Legacy.FootprintItem.assembly?
  texts : List.Forall₂ SameText (m.items.filterMap Modern.FootprintItem.text?)
    (l.items.filterMap Legacy.FootprintItem.text?)
  primitives : ∃ groups, l.items.filter Legacy.FootprintItem.isDrawn = groups.flatten ∧
    List.Forall₂ DrawnAs (m.items.filterMap Modern.FootprintItem.primitive?) groups
  models : List.Forall₂ SameModel (m.items.filterMap Modern.FootprintItem.model?)
    (l.items.filterMap Legacy.FootprintItem.model?)

/-! ## One footprint in both formats -/

theorem sameHole (d : Option Drill) : SameHole (d.map Drill.form) (Drill.lineForm d) := by
  rcases d with _ | (x | ⟨w, h⟩)
  · exact .none
  · exact .round (numberText x)
  · exact .slot (numberText w) (numberText h)

theorem samePad (p : Pad) : SamePad p.form p.lineForm where
  number := rfl
  mounting := rfl
  shape := rfl
  position := rfl
  size := rfl
  hole := sameHole p.drill
  mask := Legacy.testBit_layerMask p.layers

theorem Primitive.drawnAs (p : Primitive) : DrawnAs p.form p.lineItems := by
  cases p with
  | line start stop width l => exact .line start.printed stop.printed (numberText width) l
  | arc center start mid stop angle width l =>
    exact .arc center.printed start.printed mid.printed stop.printed _ (numberText width) l
  | circle center radius width l => exact .circle center.printed _ (numberText width) l
  | rect start stop width l => exact .rect start.printed stop.printed (numberText width) l
  | pad p => exact .pad (samePad p)

theorem sameText (t : BoardText) : SameText t.form t.lineForm :=
  ⟨rfl, rfl, rfl, rfl⟩

theorem sameModel (m : ModelRef) : SameModel m.form m.lineForm :=
  ⟨rfl, rfl⟩

theorem isDrawn_of_mem_lineItems {p : Primitive} {i : Legacy.FootprintItem} (hi : i ∈ p.lineItems) :
    i.isDrawn = true := by
  cases p <;> simp only [Primitive.lineItems, List.mem_cons, List.not_mem_nil, or_false] at hi
  case rect => rcases hi with rfl | rfl | rfl | rfl <;> rfl
  all_goals rw [hi]; rfl

namespace Footprint

variable (f : Footprint)

theorem isDrawn_lineItems : ∀ i ∈ f.primitives.flatMap Primitive.lineItems, i.isDrawn = true := by
  intro i hi
  obtain ⟨p, -, hi⟩ := List.mem_flatMap.mp hi
  exact isDrawn_of_mem_lineItems hi

variable {β : Type}

/-- What is picked from the modern items, by kind. -/
theorem filterMap_form (pick : Modern.FootprintItem → Option β) :
    f.form.items.filterMap pick =
      [.setting "version" "20211014", .setting "generator" "easyeda_kiconv", .side .frontCopper,
        .description f.description].filterMap pick ++ f.assembly.toList.filterMap (pick <| .assembly ·) ++
      f.texts.filterMap (pick <| .text ·.form) ++ f.primitives.filterMap (pick <| .primitive ·.form) ++
      f.model.toList.filterMap (pick <| .model ·.form) := by
  simp only [form, List.filterMap_append, List.filterMap_map]
  rfl

/-- What is picked from the legacy items, by kind, if nothing that is drawn is. -/
theorem filterMap_lineItems {pick : Legacy.FootprintItem → Option β}
    (hpick : ∀ i, i.isDrawn = true → pick i = none) :
    f.lineItems.filterMap pick = f.assembly.toList.filterMap (pick <| .assembly ·) ++
      f.texts.filterMap (pick <| .text ·.lineForm) ++ f.model.toList.filterMap (pick <| .model ·.lineForm) := by
  have hnone : (f.primitives.flatMap Primitive.lineItems).filterMap pick = [] := by
    rw [List.filterMap_eq_nil_iff]
    exact fun i hi => hpick i (isDrawn_lineItems f i hi)
  simp only [lineItems, List.filterMap_append, List.filterMap_map, hnone, List.append_nil]
  rfl

/-- **Both formats show the same drawing**, in what is read of them. -/
theorem sameDrawing : SameDrawing f.form ⟨f.name, f.description, f.lineItems⟩ where
  name := rfl
  description := by
    rw [filterMap_form]
    simp only [Modern.FootprintItem.description?, List.filterMap_none, List.append_nil]
    rfl
  assembly := by
    rw [filterMap_form, filterMap_lineItems f fun i hi => (i.eq_none_of_isDrawn hi).1]
    simp only [Modern.FootprintItem.assembly?, Legacy.FootprintItem.assembly?, List.filterMap_none,
      List.append_nil]
    rfl
  texts := by
    rw [filterMap_form, filterMap_lineItems f fun i hi => (i.eq_none_of_isDrawn hi).2.1]
    simp only [Modern.FootprintItem.text?, Legacy.FootprintItem.text?, List.filterMap_none,
      List.append_nil, List.filterMap_eq_map']
    exact Text.forall₂_map_map sameText f.texts
  primitives := by
    refine ⟨f.primitives.map Primitive.lineItems, ?_, ?_⟩
    · rw [lineItems, List.filter_append, List.filter_append, List.filter_append,
        List.filter_eq_self.mpr f.isDrawn_lineItems, List.flatMap_def]
      simp [List.filter_map, Function.comp_def, Legacy.FootprintItem.isDrawn]
    · rw [filterMap_form]
      simp only [Modern.FootprintItem.primitive?, List.filterMap_none, List.append_nil,
        List.filterMap_eq_map']
      exact Text.forall₂_map_map Primitive.drawnAs f.primitives
  models := by
    rw [filterMap_form, filterMap_lineItems f fun i hi => (i.eq_none_of_isDrawn hi).2.2]
    simp only [Modern.FootprintItem.model?, Legacy.FootprintItem.model?, List.filterMap_none,
      List.append_nil, List.filterMap_eq_map']
    exact Text.forall₂_map_map sameModel f.model.toList

/-- A part on the surface, with a quote in a text of its drawing. -/
def drawnChip : Footprint :=
  { name := "0603"
    description := "chip"
    primitives := [
      .rect ⟨-1, -1⟩ ⟨1, 1⟩ 0.15 .frontSilk,
      .pad ⟨"1", .surface, .oval, ⟨-1, 0⟩, ⟨1, 1⟩, 0, [.frontCopper, .frontMask], none, []⟩,
      .pad ⟨"2", .surface, .oval, ⟨1, 0⟩, ⟨1, 1⟩, 0, [.frontCopper, .frontMask], none, []⟩]
    texts := [⟨.user, "5\"", ⟨0, 0⟩, .frontFab⟩]
    model := some ⟨"0603.step", ⟨0, 0, 0⟩, ⟨0, 0, 90⟩⟩ }

end Footprint

end EdaParts
