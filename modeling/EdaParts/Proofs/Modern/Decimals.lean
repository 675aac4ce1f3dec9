import EdaParts.Proofs.Footprint.Range
import EdaParts.Proofs.Modern.FootprintForm
import EdaParts.Proofs.Symbol.Range

/-!
# Numbers of the modern formats

What stands outside of quotes is a word that the format knows or a number. A file whose numbers are all
decimals is one where each word that the format does not know is a decimal.

* `keywords` : the words that the format knows;
* `PrintsDecimals` : all other words of a text are decimals;
* `numbers`, `symbolNumbers` : the numbers that a footprint and a symbol are written with;
* `printsDecimals_footprintFile_iff`, `printsDecimals_symbolEntry_iff` : they are decimals just if all of those
  are in reach.
-/

namespace EdaParts.Modern

/-! ## Words -/

/-- The heads of lists, and the words that stand for a choice. -/
def keywords : List String :=
  ["symbol", "in_bom", "on_board", "yes", "property", "id", "at", "effects", "font", "size", "justify",
    "left", "hide", "pin", "input", "output", "bidirectional", "power_in", "unspecified", "line", "length",
    "name", "number", "rectangle", "start", "mid", "end", "stroke", "width", "type", "default", "color",
    "fill", "background", "none", "outline", "circle", "center", "radius", "polyline", "pts", "xy", "arc",
    "bezier", "text", "footprint", "version", "generator", "easyeda_kiconv", "layer", "descr", "attr",
    "smd", "through_hole", "fp_text", "reference", "value", "user", "thickness", "fp_line", "fp_arc",
    "fp_circle", "fp_rect", "solid", "pad", "thru_hole", "rect", "oval", "custom", "drill", "layers",
    "options", "clearance", "anchor", "primitives", "gr_poly", "model", "offset", "scale", "xyz", "rotate"]

/-- A word that the format knows, or a decimal. -/
def IsWord (w : String) : Prop := Decimal.IsWordOf keywords w

instance (w : String) : Decidable (IsWord w) := inferInstanceAs (Decidable (Decimal.IsWordOf _ _))

namespace Datum

mutual

/-- The words of an expression, outside of quotes. -/
def words : Datum → List String
  | word cs => [String.ofList cs]
  | text _ => []
  | list items => wordsOf items

def wordsOf : List Datum → List String
  | [] => []
  | d :: ds => d.words ++ wordsOf ds

end

theorem wordsOf_append (ds es : List Datum) : wordsOf (ds ++ es) = wordsOf ds ++ wordsOf es := by
  induction ds with
  | nil => rfl
  | cons d ds ih => rw [List.cons_append, wordsOf, wordsOf, ih, List.append_assoc]

end Datum

/-- The text is one expression, and each of its words that the format does not know is a decimal. -/
def PrintsDecimals (text : String) : Prop :=
  ∃ d, readBack? text = some d ∧ ∀ w ∈ d.words, IsWord w

namespace Expr

mutual

/-- Each word of an expression that the format does not know is a decimal. -/
def HasDecimals : Expr → Prop
  | atom text => IsWord text
  | quoted _ => True
  | list head items => IsWord head ∧ AllHaveDecimals items
  | block head items body => IsWord head ∧ AllHaveDecimals items ∧ AllHaveDecimals body

def AllHaveDecimals : List Expr → Prop
  | [] => True
  | e :: es => e.HasDecimals ∧ AllHaveDecimals es

end

theorem allHaveDecimals_iff {es : List Expr} : AllHaveDecimals es ↔ ∀ e ∈ es, e.HasDecimals := by
  induction es with
  | nil => simp [AllHaveDecimals]
  | cons e es ih => rw [AllHaveDecimals, ih, List.forall_mem_cons]

@[simp] theorem allHaveDecimals_append (es fs : List Expr) :
    AllHaveDecimals (es ++ fs) ↔ AllHaveDecimals es ∧ AllHaveDecimals fs := by
  simp [allHaveDecimals_iff, or_imp, forall_and]

@[simp] theorem allHaveDecimals_map {α : Type} (f : α → Expr) (as : List α) :
    AllHaveDecimals (as.map f) ↔ ∀ a ∈ as, (f a).HasDecimals := by
  rw [allHaveDecimals_iff, List.forall_mem_map]

mutual

theorem forall_words_datum_iff : ∀ e : Expr, (∀ w ∈ e.datum.words, IsWord w) ↔ e.HasDecimals
  | atom text => by simp [datum, Datum.words, HasDecimals]
  | quoted text => by simp [datum, Datum.words, HasDecimals]
  | list head items => by
    simp [datum, Datum.words, Datum.wordsOf, HasDecimals, forall_wordsOf_dataOf_iff items]
  | block head items body => by
    simp [datum, Datum.words, Datum.wordsOf, Datum.wordsOf_append, HasDecimals, or_imp, forall_and,
      forall_wordsOf_dataOf_iff items, forall_wordsOf_dataOf_iff body]

theorem forall_wordsOf_dataOf_iff : ∀ es : List Expr,
    (∀ w ∈ Datum.wordsOf (dataOf es), IsWord w) ↔ AllHaveDecimals es
  | [] => by simp [dataOf, Datum.wordsOf, AllHaveDecimals]
  | e :: es => by
    simp [dataOf, Datum.wordsOf, AllHaveDecimals, or_imp, forall_and, forall_words_datum_iff e,
      forall_wordsOf_dataOf_iff es]

end

/-- **A printed block** is read back with the words of its expression. -/
theorem printsDecimals_block_iff {head : String} {items body : List Expr}
    (h : (block head items body).WellFormed) :
    PrintsDecimals ((block head items body).print 0 ++ "\n") ↔ (block head items body).HasDecimals := by
  have hread : readBack? ((block head items body).print 0 ++ "\n") = some (block head items body).datum :=
    (isDocument_block h).readBack?
  rw [PrintsDecimals, hread, ← forall_words_datum_iff]
  simp

end Expr

open Modern.Expr

/-! ## Numbers -/

theorem isWord_numberText_iff {x : Float} : IsWord (numberText x) ↔ InReach x :=
  isWordOf_numberText_iff (by decide)

@[simp] theorem hasDecimals_number (x : Float) : (number x).HasDecimals ↔ InReach x := by
  rw [number, HasDecimals, isWord_numberText_iff]

@[simp] theorem hasDecimals_natural (n : Nat) : (natural n).HasDecimals := by
  rw [natural, HasDecimals]
  exact Or.inr (Decimal.isDecimal_toString_nat n)

/-! ## The numbers of footprints -/

/-- The numbers that a pad is written with. Only a custom pad has an outline of its own. -/
def padNumbers (p : Pad) : List Float :=
  p.position.numbers ++ [p.rotation] ++ p.size.numbers ++ p.drill.toList.flatMap Drill.numbers ++
    if p.shape = .custom then p.outline.flatMap Point.numbers else []

def primitiveNumbers : Primitive → List Float
  | .line start stop width _ => start.numbers ++ stop.numbers ++ [width]
  | .arc _ start mid stop _ width _ => start.numbers ++ mid.numbers ++ stop.numbers ++ [width]
  | .circle center radius width _ => center.numbers ++ [center.x + radius, width]
  | .rect start stop width _ => start.numbers ++ stop.numbers ++ [width]
  | .pad p => padNumbers p

def modelNumbers (m : ModelRef) : List Float := m.offset.numbers ++ m.rotation.numbers

/-- The numbers that a footprint is written with. -/
def numbers (f : Footprint) : List Float :=
  f.texts.flatMap (·.position.numbers) ++ f.primitives.flatMap primitiveNumbers ++
    f.model.toList.flatMap modelNumbers

@[simp] theorem allHaveDecimals_boardCoordinates (p : Point) :
    AllHaveDecimals (boardCoordinates p) ↔ ∀ x ∈ p.numbers, InReach x := by
  simp [boardCoordinates, AllHaveDecimals, Point.numbers]

@[simp] theorem hasDecimals_layer (l : Layer) : (layer l).HasDecimals := by
  simp +decide [layer, HasDecimals, AllHaveDecimals]

@[simp] theorem hasDecimals_stroke_iff (width : Float) : (stroke width).HasDecimals ↔ InReach width := by
  simp +decide [stroke, HasDecimals, AllHaveDecimals]

theorem hasDecimals_drill_iff (d : Option Drill) :
    AllHaveDecimals (drill d) ↔ ∀ x ∈ d.toList.flatMap Drill.numbers, InReach x := by
  rcases d with _ | (x | ⟨w, h⟩) <;> simp +decide [drill, HasDecimals, AllHaveDecimals, Drill.numbers]

theorem hasDecimals_padOutline_iff (points : List Point) :
    AllHaveDecimals (padOutline points) ↔ ∀ x ∈ points.flatMap Point.numbers, InReach x := by
  rw [List.forall_mem_flatMap]
  simp +decide [padOutline, HasDecimals, AllHaveDecimals]

theorem hasDecimals_pad_iff (p : Pad) : (pad p).HasDecimals ↔ ∀ x ∈ padNumbers p, InReach x := by
  have hmounting : IsWord (padMounting p.mounting) := by cases p.mounting <;> decide
  have hshape : IsWord (padShape p.shape) := by cases p.shape <;> decide
  have hitems : AllHaveDecimals ([quoted p.number, atom (padMounting p.mounting), atom (padShape p.shape),
      list "at" (boardCoordinates p.position ++ [number p.rotation]),
      list "size" [number p.size.x, number p.size.y]] ++
      drill p.drill ++ [list "layers" (p.layers.map fun l => quoted l.name)]) ↔
      ∀ x ∈ p.position.numbers ++ [p.rotation] ++ p.size.numbers ++ p.drill.toList.flatMap Drill.numbers,
        InReach x := by
    simp +decide [HasDecimals, AllHaveDecimals, hmounting, hshape, hasDecimals_drill_iff, Point.numbers, or_imp,
      forall_and, and_assoc]
  have hhead : IsWord "pad" := by decide
  unfold pad padNumbers
  dsimp only
  rw [List.forall_mem_append, ← hitems]
  by_cases hcustom : p.shape = .custom
  · rw [if_pos hcustom, ← hasDecimals_padOutline_iff]
    cases houtline : p.outline with
    | nil => simp +decide [hcustom, HasDecimals, padOutline, AllHaveDecimals]
    | cons q points => simp [hcustom, HasDecimals, hhead]
  · rw [if_neg hcustom]
    simp [hcustom, HasDecimals, hhead]

theorem hasDecimals_primitive_iff (p : Primitive) :
    (primitive p).HasDecimals ↔ ∀ x ∈ primitiveNumbers p, InReach x := by
  cases p with
  | pad p => exact hasDecimals_pad_iff p
  | circle center radius width l =>
    simp +decide [primitive, primitiveNumbers, HasDecimals, AllHaveDecimals, Point.numbers]
    tauto
  | _ => simp +decide [primitive, primitiveNumbers, HasDecimals, AllHaveDecimals, or_imp, forall_and]

theorem hasDecimals_boardText_iff (t : BoardText) :
    (boardText t).HasDecimals ↔ ∀ x ∈ t.position.numbers, InReach x := by
  have hrole : IsWord (textRole t.role) := by cases t.role <;> decide
  simp +decide [boardText, HasDecimals, AllHaveDecimals, hrole]

theorem hasDecimals_model_iff (m : Option ModelRef) :
    AllHaveDecimals (model m) ↔ ∀ x ∈ m.toList.flatMap modelNumbers, InReach x := by
  cases m with
  | none => simp [model, AllHaveDecimals]
  | some m =>
    simp +decide [model, triple, HasDecimals, AllHaveDecimals, modelNumbers, Triple.numbers, and_assoc]

/-- **The numbers of a footprint** are decimals in its expression just if they are in reach. -/
theorem hasDecimals_footprint_iff (f : Footprint) :
    (footprint f).HasDecimals ↔ ∀ x ∈ numbers f, InReach x := by
  have hassembly : AllHaveDecimals (assembly f.assembly) := by
    rcases f.assembly with _ | (_ | _) <;> simp +decide [assembly, HasDecimals, AllHaveDecimals]
  have htexts : AllHaveDecimals (f.texts.map boardText) ↔
      ∀ x ∈ f.texts.flatMap (·.position.numbers), InReach x := by
    simp only [allHaveDecimals_map, hasDecimals_boardText_iff, List.forall_mem_flatMap]
  have hprimitives : AllHaveDecimals (f.primitives.map primitive) ↔
      ∀ x ∈ f.primitives.flatMap primitiveNumbers, InReach x := by
    simp only [allHaveDecimals_map, hasDecimals_primitive_iff, List.forall_mem_flatMap]
  rw [numbers, List.forall_mem_append, List.forall_mem_append, ← htexts, ← hprimitives, ← hasDecimals_model_iff]
  simp +decide [footprint, version, generator, HasDecimals, AllHaveDecimals, hassembly, and_assoc, -allHaveDecimals_map]

theorem printsDecimals_footprintFile_iff (f : Footprint) :
    PrintsDecimals (footprintFile f) ↔ ∀ x ∈ numbers f, InReach x := by
  rw [← hasDecimals_footprint_iff]
  exact printsDecimals_block_iff (wellFormed_footprint f)

/-- A primitive is written with its own numbers, but for the point of a circle that stands for its radius. -/
theorem below_primitiveNumbers {p : Primitive} (h : AllBelow 600 p.numbers) : AllBelow 602 (primitiveNumbers p) := by
  cases p with
  | arc center start mid stop angle width l =>
    simp only [Primitive.numbers, allBelow_append, allBelow_cons] at h
    simp only [primitiveNumbers, allBelow_append]
    obtain ⟨⟨⟨⟨-, hstart⟩, hmid⟩, hstop⟩, -, hwidth, -⟩ := h
    exact ⟨⟨⟨hstart.mono (by decide), hmid.mono (by decide)⟩, hstop.mono (by decide)⟩,
      List.forall_mem_singleton.mpr (hwidth.mono (by decide))⟩
  | circle center radius width l =>
    simp only [Primitive.numbers, allBelow_append, allBelow_cons] at h
    simp only [primitiveNumbers, allBelow_append, allBelow_cons]
    obtain ⟨hcenter, hradius, hwidth, -⟩ := h
    exact ⟨hcenter.mono (by decide), (Point.below_iff.mp hcenter).1.add hradius (by decide) (by decide),
      hwidth.mono (by decide), allBelow_nil _⟩
  | pad p =>
    simp only [Primitive.numbers, Pad.numbers, allBelow_append] at h
    simp only [primitiveNumbers, padNumbers, allBelow_append]
    obtain ⟨⟨⟨⟨hposition, hsize⟩, hrotation⟩, hdrill⟩, houtline⟩ := h
    refine ⟨⟨⟨⟨hposition.mono (by decide), hrotation.mono (by decide)⟩, hsize.mono (by decide)⟩,
      hdrill.mono (by decide)⟩, ?_⟩
    split
    · exact houtline.mono (by decide)
    · exact allBelow_nil _
  | _ => exact h.mono (by decide)

/-- **A footprint whose numbers are not too large** is written with decimals. -/
theorem printsDecimals_footprintFile {f : Footprint} (h : AllBelow 600 f.numbers) :
    PrintsDecimals (footprintFile f) := by
  rw [printsDecimals_footprintFile_iff]
  simp only [Footprint.numbers, allBelow_append, allBelow_flatMap] at h
  have hnumbers : AllBelow 602 (numbers f) := by
    simp only [numbers, allBelow_append, allBelow_flatMap]
    obtain ⟨⟨htexts, hprimitives⟩, hmodel⟩ := h
    exact ⟨⟨fun t ht => (htexts t ht).mono (by decide), fun p hp => below_primitiveNumbers (hprimitives p hp)⟩,
      fun m hm => (hmodel m hm).mono (by decide)⟩
  exact hnumbers.inReach (by decide)

/-! ## The numbers of symbols -/

/-- The numbers that a graphic is written with. -/
def graphicNumbers : Graphic → List Float
  | .rectangle start stop => start.toPoint.numbers ++ stop.toPoint.numbers
  | .circle center radius => center.toPoint.numbers ++ [millimetres radius]
  | .polyline points _ => points.flatMap (·.toPoint.numbers)
  | .arc _ _ start mid stop => start.toPoint.numbers ++ mid.toPoint.numbers ++ stop.toPoint.numbers
  | .bezier p0 p1 p2 p3 => [p0, p1, p2, p3].flatMap (·.toPoint.numbers)
  | .text _ position angle size _ =>
    position.toPoint.numbers ++ [Float.ofInt angle / 10, Float.ofInt size * millimetresPerMil]
  | .pin p => p.position.toPoint.numbers ++ [millimetres p.length]

/-- The numbers that a symbol is written with. -/
def symbolNumbers (s : Symbol) : List Float :=
  s.fields.flatMap (·.position.toPoint.numbers) ++ s.graphics.flatMap graphicNumbers

@[simp] theorem allHaveDecimals_coordinates (p : MilPoint) :
    AllHaveDecimals (coordinates p) ↔ ∀ x ∈ p.toPoint.numbers, InReach x := by
  simp [coordinates, AllHaveDecimals, Point.numbers]

@[simp] theorem hasDecimals_pointList_iff (points : List MilPoint) :
    (pointList points).HasDecimals ↔ ∀ x ∈ points.flatMap (·.toPoint.numbers), InReach x := by
  rw [List.forall_mem_flatMap]
  simp +decide [pointList, HasDecimals]

@[simp] theorem hasDecimals_standardFont : standardFont.HasDecimals := by
  simp +decide [standardFont, font, HasDecimals, AllHaveDecimals]

@[simp] theorem hasDecimals_pen : pen.HasDecimals := by
  simp +decide [pen, HasDecimals, AllHaveDecimals]

@[simp] theorem allHaveDecimals_hiddenMark (hidden : Bool) : AllHaveDecimals (hiddenMark hidden) := by
  cases hidden <;> simp +decide [hiddenMark, HasDecimals, AllHaveDecimals]

theorem hasDecimals_property_iff (f : SymbolField) :
    (property f).HasDecimals ↔ ∀ x ∈ f.position.toPoint.numbers, InReach x := by
  unfold property
  cases f.leftJustified <;> simp +decide [HasDecimals, AllHaveDecimals]

theorem hasDecimals_pin_iff (p : Pin) :
    (pin p).HasDecimals ↔ ∀ x ∈ p.position.toPoint.numbers ++ [millimetres p.length], InReach x := by
  have htype : IsWord (pinType p.type) := by cases p.type <;> decide
  simp +decide [pin, length, HasDecimals, AllHaveDecimals, htype, or_imp, forall_and]

theorem hasDecimals_graphic_iff (g : Graphic) :
    (graphic g).HasDecimals ↔ ∀ x ∈ graphicNumbers g, InReach x := by
  cases g with
  | pin p => exact hasDecimals_pin_iff p
  | polyline points filled =>
    have hstyle : IsWord (if filled then "outline" else "none") := by cases filled <;> decide
    simp +decide [graphic, graphicNumbers, fill, HasDecimals, AllHaveDecimals, hstyle, -List.mem_flatMap]
  | bezier p0 p1 p2 p3 =>
    simp +decide [graphic, graphicNumbers, fill, HasDecimals, AllHaveDecimals, -List.flatMap_cons]
  | text label position angle size hidden =>
    simp +decide [graphic, graphicNumbers, font, HasDecimals, AllHaveDecimals, or_imp, forall_and, and_assoc]
  | _ =>
    simp +decide [graphic, graphicNumbers, length, fill, HasDecimals, AllHaveDecimals, or_imp, forall_and]

/-- **The numbers of a symbol** are decimals in its expression just if they are in reach. -/
theorem hasDecimals_symbol_iff (s : Symbol) : (symbol s).HasDecimals ↔ ∀ x ∈ symbolNumbers s, InReach x := by
  have hfields : AllHaveDecimals (s.fields.map property) ↔
      ∀ x ∈ s.fields.flatMap (·.position.toPoint.numbers), InReach x := by
    simp only [allHaveDecimals_map, hasDecimals_property_iff, List.forall_mem_flatMap]
  have hgraphics : AllHaveDecimals (s.graphics.map graphic) ↔
      ∀ x ∈ s.graphics.flatMap graphicNumbers, InReach x := by
    simp only [allHaveDecimals_map, hasDecimals_graphic_iff, List.forall_mem_flatMap]
  rw [symbolNumbers, List.forall_mem_append, ← hfields, ← hgraphics]
  simp +decide [symbol, HasDecimals, AllHaveDecimals, -allHaveDecimals_map]

theorem printsDecimals_symbolEntry_iff (s : Symbol) :
    PrintsDecimals (symbolEntry s) ↔ ∀ x ∈ symbolNumbers s, InReach x := by
  rw [← hasDecimals_symbol_iff]
  exact printsDecimals_block_iff (wellFormed_symbol s)

/-! ## Words in reach -/

open Binary64 Checked

section
variable {n : Int}

theorem below_ofInt_of_inWords (h : InWords n) : Below 67 (Float.ofInt n) := by
  obtain ⟨hleast, hgreatest⟩ := h
  rw [leastWord_eq] at hleast
  rw [greatestWord_eq] at hgreatest
  have hsize : n.natAbs < 2 ^ 64 := by omega
  exact below_ofInt hsize (by decide) (by decide)

theorem below_mils (h : InWords n) : Below 70 (Float.ofInt n * millimetresPerMil) := by
  have hscale : Below 1 millimetresPerMil := by decide
  exact (below_ofInt_of_inWords h).mul hscale (by decide) (by decide)

theorem inReach_mils (h : InWords n) : InReach (Float.ofInt n * millimetresPerMil) :=
  (below_mils h).inReach (by decide)

theorem inReach_millimetres (h : InWords n) : InReach (millimetres n) :=
  (Below.roundTo isFactor_four (below_mils h) (Nat.le_refl _) (by decide) (by decide)).inReach (by decide)

theorem inReach_tenths (h : InWords n) : InReach (Float.ofInt n / 10) := by
  have hten : AtLeast 1 10 := by decide
  exact Below.inReach ((below_ofInt_of_inWords h).div hten (c := 70) (by decide) (by decide) (by decide)) (by decide)

end

theorem inReach_point {p : MilPoint} (h : ∀ n ∈ p.integers, InWords n) :
    ∀ x ∈ p.toPoint.numbers, InReach x := by
  obtain ⟨hx, hy⟩ := MilPoint.inWords_integers_iff.mp h
  simp [Point.numbers, MilPoint.toPoint, inReach_millimetres hx, inReach_millimetres hy]

theorem inReach_points {points : List MilPoint} (h : ∀ n ∈ points.flatMap MilPoint.integers, InWords n) :
    ∀ x ∈ points.flatMap (·.toPoint.numbers), InReach x := by
  rw [List.forall_mem_flatMap] at h ⊢
  exact fun p hp => inReach_point (h p hp)

theorem inReach_graphic {g : Graphic} (h : ∀ n ∈ g.integers, InWords n) :
    ∀ x ∈ graphicNumbers g, InReach x := by
  rw [Graphic.integers, List.forall_mem_append, List.forall_mem_append] at h
  obtain ⟨⟨hpoints, hangles⟩, hlengths⟩ := h
  have hreach := inReach_points hpoints
  cases g with
  | rectangle start stop => simpa [graphicNumbers, Graphic.points] using hreach
  | circle center radius =>
    have hradius := inReach_millimetres (hlengths radius (List.mem_singleton_self radius))
    simp_all [graphicNumbers, Graphic.points, or_imp]
  | polyline points filled => exact hreach
  | arc center radius start mid stop => simp_all [graphicNumbers, Graphic.points, or_imp]
  | bezier p0 p1 p2 p3 => exact hreach
  | text label position angle size hidden =>
    have hangle := inReach_tenths (hangles angle (List.mem_singleton_self angle))
    have hsize := inReach_mils (hlengths size (List.mem_singleton_self size))
    simp_all [graphicNumbers, Graphic.points, or_imp]
  | pin p =>
    have hlength := inReach_millimetres (hlengths p.length (List.mem_singleton_self p.length))
    simp_all [graphicNumbers, Graphic.points, or_imp]

/-- **A symbol whose whole numbers are words** is written with decimals. -/
theorem printsDecimals_symbolEntry {s : Symbol} (h : ∀ n ∈ s.integers, InWords n) :
    PrintsDecimals (symbolEntry s) := by
  rw [printsDecimals_symbolEntry_iff, symbolNumbers, List.forall_mem_append]
  rw [Symbol.integers, List.forall_mem_append] at h
  obtain ⟨hfields, hgraphics⟩ := h
  rw [List.forall_mem_flatMap] at hfields hgraphics
  constructor
  · rw [List.forall_mem_flatMap]
    exact fun f hf => inReach_point (hfields f hf)
  · rw [List.forall_mem_flatMap]
    exact fun g hg => inReach_graphic (hgraphics g hg)

end EdaParts.Modern
