import EdaParts.Legacy.Footprint
import EdaParts.Legacy.Symbol
import EdaParts.Proofs.Footprint.Range
import EdaParts.Proofs.Legacy.Lines

/-!
# Numbers of the legacy formats

A line of a legacy file is read by the places of its words. Where no text stands, a word is one that the format
knows, or a number. Symbols have whole numbers alone, so that all numbers in their lines are decimals; those of
a footprint are if they are in reach.

* `keywords` : the words that the format knows;
* `Line.HasDecimals` : all other words of a line, but for texts, are decimals;
* `numbers` : the numbers that a footprint is written with;
* `haveDecimals_symbol`, `haveDecimals_footprint_iff` : when all lines of a symbol and of a footprint have
  decimals.
-/

namespace EdaParts.Legacy

open Binary64 Word

/-! ## Words -/

/-- What lines begin with, and the words that stand for a choice. A word without characters holds the place of
no points at all. -/
def keywords : List String :=
  ["#", "DEF", "Y", "F", "N", "F0", "F1", "F2", "F3", "F4", "F5", "F6", "F7", "H", "V", "I", "L", "C", "CNN", "S",
    "P", "f", "A", "B", "T", "Normal", "X", "R", "U", "D", "O", "W", "utf-8", "Units", "mm", "$MODULE", "Po",
    "~~", "Li", "Cd", "Sc", "Op", "At", "SMD", "STD", "T0", "T1", "T2", "DS", "DC", "DA", "Sh", "Dr", "Ne", "Na",
    "Of", "Ro", "$EndMODULE", ""]

/-- A word that the format knows, or a decimal. -/
def IsWord (w : String) : Prop := Decimal.IsWordOf keywords w

instance (w : String) : Decidable (IsWord w) := inferInstanceAs (Decidable (Decimal.IsWordOf _ _))

/-- The word stands between quotes, or the format knows it, or it is a decimal. -/
def Word.HasDecimal : Word → Prop
  | bare text => IsWord text
  | quoted _ => True

/-- The places of bare texts, and of the mask of a pad, by what a line begins with. -/
def textPlaces : List (String × List Nat) :=
  [("#", [1]), ("DEF", [1, 2]), ("T", [8]), ("X", [1, 2]), ("$MODULE", [1]), ("Li", [1]), ("Cd", [1]),
    ("At", [3]), ("$EndMODULE", [1])]

/-- The words of a line without its texts. A line of one word has no other. -/
def Line.untexted : Line → List Word
  | bare head :: w :: l =>
    ((textPlaces.lookup head).getD []).foldr (fun place l => l.eraseIdx place) (bare head :: w :: l)
  | _ => []

def AllHaveDecimals (ws : List Word) : Prop := ∀ w ∈ ws, w.HasDecimal

/-- Each word of a line that is no text, and that the format does not know, is a decimal. -/
def Line.HasDecimals (l : Line) : Prop := AllHaveDecimals l.untexted

/-- All lines have decimals. -/
def HaveDecimals (ls : List Line) : Prop := ∀ l ∈ ls, l.HasDecimals

@[simp] theorem allHaveDecimals_nil : AllHaveDecimals [] := List.forall_mem_nil _

@[simp] theorem allHaveDecimals_cons (w : Word) (ws : List Word) :
    AllHaveDecimals (w :: ws) ↔ w.HasDecimal ∧ AllHaveDecimals ws := List.forall_mem_cons

@[simp] theorem allHaveDecimals_append (ws vs : List Word) :
    AllHaveDecimals (ws ++ vs) ↔ AllHaveDecimals ws ∧ AllHaveDecimals vs := List.forall_mem_append

@[simp] theorem haveDecimals_nil : HaveDecimals [] := List.forall_mem_nil _

@[simp] theorem haveDecimals_cons (l : Line) (ls : List Line) :
    HaveDecimals (l :: ls) ↔ l.HasDecimals ∧ HaveDecimals ls := List.forall_mem_cons

@[simp] theorem haveDecimals_append (ls ks : List Line) :
    HaveDecimals (ls ++ ks) ↔ HaveDecimals ls ∧ HaveDecimals ks := List.forall_mem_append

theorem isWord_numberText_iff {x : Float} : IsWord (numberText x) ↔ InReach x :=
  isWordOf_numberText_iff (by decide)

@[simp] theorem hasDecimal_bare (text : String) : (bare text).HasDecimal ↔ IsWord text := Iff.rfl

@[simp] theorem hasDecimal_quoted (text : String) : (quoted text).HasDecimal := trivial

@[simp] theorem hasDecimal_number_iff (x : Float) : (number x).HasDecimal ↔ InReach x := isWord_numberText_iff

@[simp] theorem hasDecimal_integer (n : Int) : (integer n).HasDecimal :=
  Or.inr (Decimal.isDecimal_toString_int n)

@[simp] theorem hasDecimal_tenths (degrees : Float) : (tenths degrees).HasDecimal := hasDecimal_integer _

theorem hasDecimals_singleton (w : Word) : Line.HasDecimals [w] := by
  cases w <;> exact List.forall_mem_nil _

/-- A line that begins with a word after which no texts stand. -/
theorem hasDecimals_cons_iff {head : String} {l : Line} (hhead : textPlaces.lookup head = none)
    (hword : IsWord head) : Line.HasDecimals (bare head :: l) ↔ AllHaveDecimals l := by
  cases l with
  | nil => exact iff_of_true (List.forall_mem_nil _) (List.forall_mem_nil _)
  | cons w l =>
    rw [Line.HasDecimals, Line.untexted, hhead]
    show AllHaveDecimals (bare head :: w :: l) ↔ _
    rw [allHaveDecimals_cons]
    exact and_iff_right hword

/-! ## Symbols -/

@[simp] theorem allHaveDecimals_coordinates (p : MilPoint) : AllHaveDecimals (coordinates p) := by
  simp [coordinates]

@[simp] theorem allHaveDecimals_pointList (points : List MilPoint) : AllHaveDecimals (pointList points) := by
  unfold pointList
  split
  · exact List.forall_mem_singleton.mpr (Or.inl (by decide))
  · exact List.forall_mem_flatMap.mpr fun p _ => allHaveDecimals_coordinates p

theorem hasDecimals_field (f : SymbolField) : (field f).HasDecimals := by
  have hname : textPlaces.lookup ("F" ++ toString f.key.number) = none := by cases f.key <;> decide
  have hword : IsWord ("F" ++ toString f.key.number) := by cases f.key <;> decide
  have hnames : AllHaveDecimals (f.key.legacyName?.toList.map quoted) :=
    List.forall_mem_map.mpr fun name _ => hasDecimal_quoted name
  have hseen : IsWord (if f.visible then "V" else "I") := by cases f.visible <;> decide
  have hside : IsWord (if f.leftJustified then "L" else "C") := by cases f.leftJustified <;> decide
  simp only [field, List.cons_append, List.nil_append]
  rw [hasDecimals_cons_iff hname hword]
  simp +decide [hnames, hseen, hside]

theorem hasDecimals_graphic (part : Nat) (g : Graphic) : (graphic part g).HasDecimals := by
  cases g with
  | text label position angle size hidden =>
    have hhidden : IsWord (if hidden then "1" else "0") := by cases hidden <;> decide
    show AllHaveDecimals ([bare "T", integer angle] ++ coordinates position ++
      [integer size, bare (if hidden then "1" else "0"), integer part, bare "0"] ++
      bareWords ["Normal", "0", "C", "C"])
    simp +decide [hhidden, bareWords]
  | pin p =>
    have horientation : IsWord (pinOrientation p.orientation) := by cases p.orientation <;> decide
    have htype : IsWord (pinType p.type) := by cases p.type <;> decide
    show AllHaveDecimals ([bare "X"] ++ coordinates p.position ++
      [integer p.length, bare (pinOrientation p.orientation), integer pinTextSize, integer pinTextSize,
        integer part, bare "0", bare (pinType p.type)])
    simp +decide [horientation, htype]
  | polyline points filled =>
    have hfilled : IsWord (if filled then "f" else "N") := by cases filled <;> decide
    simp +decide [graphic, hasDecimals_cons_iff, bareWords, hfilled]
  | _ => simp +decide [graphic, hasDecimals_cons_iff, bareWords]

/-- **The numbers of a symbol** are decimals, whatever symbol it is. -/
theorem haveDecimals_symbol (s : Symbol) : HaveDecimals (symbol s) := by
  have hfields : HaveDecimals (s.fields.map field) := List.forall_mem_map.mpr fun f _ => hasDecimals_field f
  have hgraphics : HaveDecimals (s.graphics.map (graphic s.part)) :=
    List.forall_mem_map.mpr fun g _ => hasDecimals_graphic s.part g
  have hname : Line.HasDecimals [bare "#", bare s.name] := by
    show AllHaveDecimals [bare "#"]
    simp +decide
  have hdefinition : Line.HasDecimals ([bare "DEF", bare s.name, bare s.designator] ++
      bareWords ["0", "40", "Y", "Y"] ++ [integer s.part] ++ bareWords ["F", "N"]) := by
    show AllHaveDecimals ([bare "DEF"] ++ bareWords ["0", "40", "Y", "Y"] ++ [integer s.part] ++ bareWords ["F", "N"])
    simp +decide [bareWords]
  simp only [symbol, haveDecimals_append, haveDecimals_cons, haveDecimals_nil, and_true]
  exact ⟨⟨⟨⟨⟨hasDecimals_singleton _, hname, hasDecimals_singleton _, hdefinition⟩, hfields⟩,
    hasDecimals_singleton _⟩, hgraphics⟩, hasDecimals_singleton _, hasDecimals_singleton _⟩

/-! ## Footprints -/

/-- The numbers that a pad is written with. Its rotation is a whole number of tenths. -/
def padNumbers (p : Pad) : List Float :=
  p.size.numbers ++ p.drill.toList.flatMap Drill.numbers ++ p.position.numbers

def primitiveNumbers : Primitive → List Float
  | .line start stop width _ => start.numbers ++ stop.numbers ++ [width]
  | .arc center start _ _ _ width _ => center.numbers ++ start.numbers ++ [width]
  | .circle center radius width _ => center.numbers ++ [center.x + radius, width]
  | .rect start stop width _ => start.numbers ++ stop.numbers ++ [width]
  | .pad p => padNumbers p

/-- The numbers that a model is written with, its offset in inches. -/
def modelNumbers (m : ModelRef) : List Float :=
  m.offset.numbers.map (· / millimetresPerInch) ++ m.rotation.numbers

/-- The numbers that a footprint is written with. -/
def numbers (f : Footprint) : List Float :=
  f.texts.flatMap (·.position.numbers) ++ f.primitives.flatMap primitiveNumbers ++
    f.model.toList.flatMap modelNumbers

@[simp] theorem allHaveDecimals_boardCoordinates (p : Point) :
    AllHaveDecimals (boardCoordinates p) ↔ ∀ x ∈ p.numbers, InReach x := by
  simp [boardCoordinates, Point.numbers]

theorem hasDecimals_drill_iff (d : Option Drill) :
    (drill d).HasDecimals ↔ ∀ x ∈ d.toList.flatMap Drill.numbers, InReach x := by
  rcases d with _ | (x | ⟨w, h⟩) <;> simp +decide [drill, hasDecimals_cons_iff, bareWords, Drill.numbers]

theorem haveDecimals_pad_iff (p : Pad) : HaveDecimals (pad p) ↔ ∀ x ∈ padNumbers p, InReach x := by
  have hshape : IsWord (padShape p.shape) := by cases p.shape <;> decide
  have hmounting : IsWord (mounting p.mounting) := by cases p.mounting <;> decide
  have hlayers : Line.HasDecimals [bare "At", bare (mounting p.mounting), bare "N",
      bare (maskText (layerMask p.layers))] := by
    show AllHaveDecimals [bare "At", bare (mounting p.mounting), bare "N"]
    simp +decide [hmounting]
  rw [padNumbers, List.forall_mem_append, List.forall_mem_append, ← hasDecimals_drill_iff]
  simp +decide [pad, hasDecimals_cons_iff, hasDecimals_singleton, bareWords, hshape, hlayers, Point.numbers, and_assoc]

theorem hasDecimals_segment_iff (start stop : Point) (width : Float) (l : Layer) :
    (segment start stop width l).HasDecimals ↔ ∀ x ∈ start.numbers ++ stop.numbers ++ [width], InReach x := by
  simp +decide [segment, hasDecimals_cons_iff, Point.numbers, and_assoc]

theorem haveDecimals_primitive_iff (p : Primitive) :
    HaveDecimals (primitive p) ↔ ∀ x ∈ primitiveNumbers p, InReach x := by
  cases p with
  | line start stop width l => simp [primitive, primitiveNumbers, hasDecimals_segment_iff]
  | arc center start mid stop angle width l =>
    simp +decide [primitive, primitiveNumbers, hasDecimals_cons_iff, Point.numbers, and_assoc]
  | circle center radius width l =>
    simp +decide [primitive, primitiveNumbers, hasDecimals_cons_iff, Point.numbers]
    tauto
  | rect start stop width l =>
    simp [primitive, primitiveNumbers, hasDecimals_segment_iff, Point.numbers]
    tauto
  | pad p => exact haveDecimals_pad_iff p

theorem hasDecimals_boardText_iff (t : BoardText) :
    (boardText t).HasDecimals ↔ ∀ x ∈ t.position.numbers, InReach x := by
  have hrole : IsWord (textRole t.role) := by cases t.role <;> decide
  have hname : textPlaces.lookup (textRole t.role) = none := by cases t.role <;> decide
  simp only [boardText, List.cons_append]
  rw [hasDecimals_cons_iff hname hrole]
  simp +decide

theorem haveDecimals_model_iff (m : Option ModelRef) :
    HaveDecimals (model m) ↔ ∀ x ∈ m.toList.flatMap modelNumbers, InReach x := by
  cases m with
  | none => simp [model]
  | some m =>
    simp +decide [model, hasDecimals_cons_iff, hasDecimals_singleton, bareWords, modelNumbers, Triple.numbers,
      and_assoc]

/-- **The numbers of a footprint** are decimals just if they are in reach. -/
theorem haveDecimals_footprint_iff (f : Footprint) :
    HaveDecimals (footprint f) ↔ ∀ x ∈ numbers f, InReach x := by
  have hassembly : HaveDecimals (assembly f.assembly) := by
    rcases f.assembly with _ | m
    · exact haveDecimals_nil
    · have hmounting : IsWord (mounting m) := by cases m <;> decide
      have hline : Line.HasDecimals [bare "At", bare (mounting m)] := by
        show AllHaveDecimals [bare "At", bare (mounting m)]
        simp +decide [hmounting]
      exact List.forall_mem_singleton.mpr hline
  have htexts : HaveDecimals (f.texts.map boardText) ↔
      ∀ x ∈ f.texts.flatMap (·.position.numbers), InReach x := by
    simp only [HaveDecimals, List.forall_mem_map, hasDecimals_boardText_iff, List.forall_mem_flatMap]
  have hprimitives : HaveDecimals (f.primitives.flatMap primitive) ↔
      ∀ x ∈ f.primitives.flatMap primitiveNumbers, InReach x := by
    rw [HaveDecimals, List.forall_mem_flatMap, List.forall_mem_flatMap]
    exact forall₂_congr fun p _ => haveDecimals_primitive_iff p
  have hnamed (text : String) :
      Line.HasDecimals [bare "$MODULE", bare text] ∧ Line.HasDecimals [bare "Li", bare text] ∧
        Line.HasDecimals [bare "Cd", bare text] ∧ Line.HasDecimals [bare "$EndMODULE", bare text] := by
    refine ⟨?_, ?_, ?_, ?_⟩ <;> exact List.forall_mem_singleton.mpr (Or.inl (by decide))
  have hencoding : Line.HasDecimals [bare "#", bare "encoding", bare "utf-8"] := by
    show AllHaveDecimals [bare "#", bare "utf-8"]
    simp +decide
  rw [numbers, List.forall_mem_append, List.forall_mem_append, ← htexts, ← hprimitives, ← haveDecimals_model_iff]
  simp +decide [footprint, hasDecimals_cons_iff, hasDecimals_singleton, bareWords, hassembly, and_assoc, hnamed,
    hencoding]

/-- A primitive is written with numbers of its own, but for the point of a circle that stands for its radius. -/
theorem below_primitiveNumbers {p : Primitive} (h : AllBelow 600 p.numbers) : AllBelow 602 (primitiveNumbers p) := by
  cases p with
  | arc center start mid stop angle width l =>
    simp only [Primitive.numbers, allBelow_append, allBelow_cons] at h
    simp only [primitiveNumbers, allBelow_append]
    obtain ⟨⟨⟨⟨hcenter, hstart⟩, -⟩, -⟩, -, hwidth, -⟩ := h
    exact ⟨⟨hcenter.mono (by decide), hstart.mono (by decide)⟩,
      List.forall_mem_singleton.mpr (hwidth.mono (by decide))⟩
  | circle center radius width l =>
    simp only [Primitive.numbers, allBelow_append, allBelow_cons] at h
    simp only [primitiveNumbers, allBelow_append, allBelow_cons]
    obtain ⟨hcenter, hradius, hwidth, -⟩ := h
    exact ⟨hcenter.mono (by decide), (Point.below_iff.mp hcenter).1.add hradius (by decide) (by decide),
      hwidth.mono (by decide), allBelow_nil _⟩
  | pad p =>
    simp only [Primitive.numbers, Pad.numbers, allBelow_append] at h
    simp only [primitiveNumbers, padNumbers, allBelow_append]
    obtain ⟨⟨⟨⟨hposition, hsize⟩, -⟩, hdrill⟩, -⟩ := h
    exact ⟨⟨hsize.mono (by decide), hdrill.mono (by decide)⟩, hposition.mono (by decide)⟩
  | _ => exact h.mono (by decide)

theorem below_modelNumbers {m : ModelRef} (h : AllBelow 600 m.numbers) : AllBelow 602 (modelNumbers m) := by
  have hinch : AtLeast 5 millimetresPerInch := by decide
  rw [ModelRef.numbers, allBelow_append] at h
  rw [modelNumbers, allBelow_append]
  refine ⟨List.forall_mem_map.mpr fun x hx => ?_, h.2.mono (by decide)⟩
  exact (h.1 x hx).div hinch (by decide) (by decide) (by decide)

/-- **A footprint whose numbers are not too large** is written with decimals. -/
theorem haveDecimals_footprint {f : Footprint} (h : AllBelow 600 f.numbers) : HaveDecimals (footprint f) := by
  rw [haveDecimals_footprint_iff]
  simp only [Footprint.numbers, allBelow_append, allBelow_flatMap] at h
  have hnumbers : AllBelow 602 (numbers f) := by
    simp only [numbers, allBelow_append, allBelow_flatMap]
    obtain ⟨⟨htexts, hprimitives⟩, hmodel⟩ := h
    exact ⟨⟨fun t ht => (htexts t ht).mono (by decide), fun p hp => below_primitiveNumbers (hprimitives p hp)⟩,
      fun m hm => below_modelNumbers (hmodel m hm)⟩
  exact hnumbers.inReach (by decide)

end EdaParts.Legacy
