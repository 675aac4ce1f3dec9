import Mathlib
import EdaParts.Legacy.Footprint
import EdaParts.Proofs.Decimal.Coordinates
import EdaParts.Proofs.Legacy.SymbolForm

/-!
# Footprints read back by position

The lines of a footprint are twelve that name it, and then its items: how it is assembled, its texts, what
it draws, its pads and its model. A pad and a model take several lines each.

* `FootprintForm`, `FootprintForm.read?` : what can be read of a footprint;
* `Footprint.lineItems` : the items that should be read of one;
* `readHex_maskText` : the mask of a pad is read again;
* `ReadsAs` : lines are read as items, whatever follows them;
* `read?_footprintFile` : a footprint whose texts are not broken into lines is read from its file.
-/

namespace EdaParts.Legacy

/-! ## Forms -/

structure TextForm where
  role : TextRole
  text : String
  position : PrintedPoint
  layer : Nat
  deriving Repr, DecidableEq

/-- A hole, and the width and height of one that is not round. -/
structure DrillForm where
  diameter : String
  slot : Option (String × String)
  deriving Repr, DecidableEq

structure PadForm where
  number : String
  shape : String
  size : PrintedPoint
  rotation : Int
  drill : DrillForm
  mounting : Mounting
  mask : Nat
  position : PrintedPoint
  deriving Repr, DecidableEq

structure ModelForm where
  path : String
  offset : PrintedTriple
  rotation : PrintedTriple
  deriving Repr, DecidableEq

inductive FootprintItem where
  | assembly (mounting : Mounting)
  | text (text : TextForm)
  | segment (start stop : PrintedPoint) (width : String) (layer : Nat)
  | circle (center edge : PrintedPoint) (width : String) (layer : Nat)
  | arc (center start : PrintedPoint) (angle : Int) (width : String) (layer : Nat)
  | pad (pad : PadForm)
  | model (model : ModelForm)
  deriving Repr, DecidableEq

structure FootprintForm where
  name : String
  description : String
  items : List FootprintItem
  deriving Repr, DecidableEq

/-! ## Reading -/

def roles : List (String × TextRole) :=
  [("T0", .reference), ("T1", .value), ("T2", .user)]

def mountings : List (String × Mounting) :=
  [("SMD", .surface), ("STD", .throughHole)]

def TextForm.read? (line : String) : Option TextForm :=
  match quoteParts line with
  | [front, label, ""] =>
    match words front with
    | [role, x, y, _, _, _, _, _, _, layer, _, ""] =>
      return ⟨← roles.lookup role, label, ⟨x, y⟩, ← layer.toNat?⟩
    | _ => none
  | _ => none

/-- An item of one line. -/
def FootprintItem.read? (line : String) : Option FootprintItem :=
  match words line with
  | ["At", mounting] => return .assembly (← mountings.lookup mounting)
  | ["DS", x, y, x', y', width, layer] => return .segment ⟨x, y⟩ ⟨x', y'⟩ width (← layer.toNat?)
  | ["DC", x, y, x', y', width, layer] => return .circle ⟨x, y⟩ ⟨x', y'⟩ width (← layer.toNat?)
  | ["DA", x, y, x', y', angle, width, layer] =>
    return .arc ⟨x, y⟩ ⟨x', y'⟩ (← angle.toInt?) width (← layer.toNat?)
  | _ => return .text (← TextForm.read? line)

def DrillForm.read? (line : String) : Option DrillForm :=
  match words line with
  | [_, diameter, _, _] => some ⟨diameter, none⟩
  | [_, diameter, _, _, _, width, height] => some ⟨diameter, some (width, height)⟩
  | _ => none

def hexDigits : List Char := "0123456789ABCDEF".toList

/-- A number from its hexadecimal digits, after those that make a number already. -/
def readHex (n : Nat) : List Char → Option Nat
  | [] => some n
  | c :: cs => (hexDigits.idxOf? c).bind fun d => readHex (16 * n + d) cs

def PadForm.read? (shapeLine drillLine layersLine positionLine : String) : Option PadForm :=
  match quoteParts shapeLine, words layersLine, words positionLine with
  | [_, number, rest], [_, mounting, _, mask], [_, x, y] =>
    match words rest with
    | ["", shape, width, height, _, _, rotation] =>
      return {
        number, shape
        size := ⟨width, height⟩
        rotation := ← rotation.toInt?
        drill := ← DrillForm.read? drillLine
        mounting := ← mountings.lookup mounting
        mask := ← readHex 0 mask.toList
        position := ⟨x, y⟩ }
    | _ => none
  | _, _, _ => none

def ModelForm.read? (pathLine offsetLine rotationLine : String) : Option ModelForm :=
  match quoteParts pathLine, words offsetLine, words rotationLine with
  | [_, path, ""], [_, x, y, z], [_, x', y', z'] => some ⟨path, ⟨x, y, z⟩, ⟨x', y', z'⟩⟩
  | _, _, _ => none

/-- Items in order. A pad and a model begin and end with lines of their own. -/
def readItems : List String → Option (List FootprintItem)
  | [] => some []
  | line :: rest =>
    if line = "$PAD" then
      match rest with
      | shape :: drill :: layers :: _ :: position :: last :: rest =>
        if last = "$EndPAD" then
          return .pad (← PadForm.read? shape drill layers position) :: (← readItems rest)
        else none
      | _ => none
    else if line = "$SHAPE3D" then
      match rest with
      | path :: _ :: offset :: rotation :: last :: rest =>
        if last = "$EndSHAPE3D" then
          return .model (← ModelForm.read? path offset rotation) :: (← readItems rest)
        else none
      | _ => none
    else return (← FootprintItem.read? line) :: (← readItems rest)

/-- The name stands on a line of its own, the description after a mark, and the items before the last two
lines. -/
def FootprintForm.ofLines? : List String → Option FootprintForm
  | _ :: _ :: _ :: _ :: name :: _ :: _ :: _ :: _ :: description :: _ :: _ :: body =>
    return {
      name
      description := String.ofList (description.toList.drop 3)
      items := ← readItems (body.take (body.length - 2)) }
  | _ => none

def FootprintForm.read? (text : String) : Option FootprintForm :=
  (lines? text).bind FootprintForm.ofLines?

end EdaParts.Legacy

namespace EdaParts

open Legacy

/-! ## What should be read -/

def BoardText.lineForm (t : BoardText) : TextForm :=
  ⟨t.role, apostrophed t.text, t.position.printed, t.layer.number⟩

/-- No hole is one of no size. -/
def Drill.lineForm : Option Drill → DrillForm
  | some (round d) => ⟨numberText d, none⟩
  | some (slot w h) => ⟨numberText w, some (numberText w, numberText h)⟩
  | none => ⟨"0", none⟩

def Pad.lineForm (p : Pad) : PadForm :=
  { number := apostrophed p.number
    shape := padShape p.shape
    size := p.size.printed
    rotation := Binary64.truncated (Binary64.rounded (p.rotation * 10))
    drill := Drill.lineForm p.drill
    mounting := p.mounting
    mask := layerMask p.layers
    position := p.position.printed }

/-- The items that a primitive is drawn as; a rectangle is drawn as its sides. -/
def Primitive.lineItems : Primitive → List FootprintItem
  | line start stop width l => [.segment start.printed stop.printed (numberText width) l.number]
  | rect start stop width l =>
    [.segment start.printed (Point.printed ⟨stop.x, start.y⟩) (numberText width) l.number,
      .segment (Point.printed ⟨stop.x, start.y⟩) stop.printed (numberText width) l.number,
      .segment stop.printed (Point.printed ⟨start.x, stop.y⟩) (numberText width) l.number,
      .segment (Point.printed ⟨start.x, stop.y⟩) start.printed (numberText width) l.number]
  | circle center radius width l =>
    [.circle center.printed (Point.printed ⟨center.x + radius, center.y⟩) (numberText width) l.number]
  | arc center start _ _ angle width l =>
    [.arc center.printed start.printed (Binary64.truncated (Binary64.rounded (angle * 10)))
      (numberText width) l.number]
  | pad p => [.pad p.lineForm]

def ModelRef.lineForm (m : ModelRef) : ModelForm :=
  { path := apostrophed m.path
    offset := Triple.printed ⟨m.offset.x / millimetresPerInch, m.offset.y / millimetresPerInch,
      m.offset.z / millimetresPerInch⟩
    rotation := m.rotation.printed }

namespace Footprint

def lineItems (f : Footprint) : List FootprintItem :=
  f.assembly.toList.map .assembly ++ f.texts.map (.text ·.lineForm) ++
    f.primitives.flatMap Primitive.lineItems ++ f.model.toList.map (.model ·.lineForm)

/-- All free texts. -/
def freeTexts (f : Footprint) : List String :=
  f.name :: f.description :: (f.texts.map BoardText.text ++ f.pads.map Pad.number ++
    f.model.toList.map ModelRef.path)

/-- No text holds the end of a line. -/
def LineFree (f : Footprint) : Prop :=
  ∀ x ∈ f.freeTexts, '\n' ∉ x.toList

end Footprint

namespace Legacy

open Word

/-! ## Items of one line -/

theorem print_number (x : Float) : (number x).print = numberText x := rfl

theorem toNat?_layer (l : Layer) : (integer l.number).print.toNat? = some l.number :=
  Nat.toNat?_repr l.number

theorem toInt?_tenths (x : Float) : (tenths x).print.toInt? =
    some (Binary64.truncated (Binary64.rounded (x * 10))) :=
  Int.toInt?_repr _

theorem lacks_boardCoordinates {c : Char} (hc : Decimal.isNumeralChar c = false) (p : Point) :
    Line.Lacks c (boardCoordinates p) := by
  simp [boardCoordinates, not_mem_number hc]

/-- The words of a line that is drawn between two points. -/
theorem words_drawn {head : String} (hhead : ' ' ∉ (bare head).print.toList) (p q : Point) {more : Line}
    (hmore : more.Lacks ' ') :
    words (Line.print (bare head :: boardCoordinates p ++ boardCoordinates q ++ more)) =
      head :: numberText p.x :: numberText p.y :: numberText q.x :: numberText q.y ::
        more.map Word.print := by
  have hcoordinates := lacks_boardCoordinates (by decide : Decimal.isNumeralChar ' ' = false)
  rw [words_print (by simp)]
  · rfl
  · simp only [List.cons_append, List.append_assoc]
    apply (lacks_cons _ _).mpr
    exact ⟨hhead, (lacks_append _ _).mpr ⟨hcoordinates p, (lacks_append _ _).mpr ⟨hcoordinates q, hmore⟩⟩⟩

theorem lacks_stroke (width : Float) (l : Layer) : Line.Lacks ' ' [number width, integer l.number] := by
  have hnumeral : Decimal.isNumeralChar ' ' = false := by decide
  simp [not_mem_number hnumeral, not_mem_integer hnumeral]

theorem read?_segment (start stop : Point) (width : Float) (l : Layer) :
    FootprintItem.read? (segment start stop width l).print =
      some (.segment start.printed stop.printed (numberText width) l.number) := by
  have hwords := words_drawn (by decide : ' ' ∉ (bare "DS").print.toList) start stop (lacks_stroke width l)
  unfold FootprintItem.read?
  rw [segment, hwords]
  simp [print_number, toNat?_layer, Point.printed]

theorem read?_circle (p q : Point) (width : Float) (l : Layer) :
    FootprintItem.read? (Line.print (bare "DC" :: boardCoordinates p ++ boardCoordinates q ++
      [number width, integer l.number])) =
      some (.circle p.printed q.printed (numberText width) l.number) := by
  have hwords := words_drawn (by decide : ' ' ∉ (bare "DC").print.toList) p q (lacks_stroke width l)
  unfold FootprintItem.read?
  rw [hwords]
  simp [print_number, toNat?_layer, Point.printed]

theorem read?_arc (p q : Point) (angle width : Float) (l : Layer) :
    FootprintItem.read? (Line.print (bare "DA" :: boardCoordinates p ++ boardCoordinates q ++
      [tenths angle, number width, integer l.number])) =
      some (.arc p.printed q.printed (Binary64.truncated (Binary64.rounded (angle * 10))) (numberText width)
        l.number) := by
  have hangle : ' ' ∉ (tenths angle).print.toList := not_mem_integer (by decide) _
  have hwords := words_drawn (by decide : ' ' ∉ (bare "DA").print.toList) p q
    ((lacks_cons _ _).mpr ⟨hangle, lacks_stroke width l⟩)
  unfold FootprintItem.read?
  rw [hwords]
  simp [print_number, toNat?_layer, toInt?_tenths, Point.printed]

theorem lookup_textRole (r : TextRole) : roles.lookup (textRole r) = some r := by
  cases r <;> decide

theorem lookup_mounting (m : Mounting) : mountings.lookup (mounting m) = some m := by
  cases m <;> decide

theorem read?_assembly (m : Mounting) :
    FootprintItem.read? (Line.print [bare "At", bare (mounting m)]) = some (.assembly m) := by
  have hwords : words (Line.print [bare "At", bare (mounting m)]) = ["At", mounting m] := by
    cases m <;> decide
  unfold FootprintItem.read?
  rw [hwords]
  simp [lookup_mounting]

/-- The words of a text before its label. -/
def textWords (t : BoardText) : Line :=
  bare (textRole t.role) :: boardCoordinates t.position ++
    [bare "1", bare "1", bare "0", bare "0.15", bare "N", bare "V", integer t.layer.number, bare "N"]

theorem boardText_eq (t : BoardText) : boardText t = textWords t ++ quoted t.text :: [] := by
  simp [boardText, textWords]

theorem lacks_textWords {c : Char} (hc : c = ' ' ∨ c = '"') (t : BoardText) :
    Line.Lacks c (textWords t) := by
  have hnumeral : Decimal.isNumeralChar c = false := by rcases hc with rfl | rfl <;> decide
  have hliterals : ∀ text ∈ ["T0", "T1", "T2", "0", "1", "0.15", "N", "V"], c ∉ (bare text).print.toList := by
    rcases hc with rfl | rfl <;> decide
  simp only [List.forall_mem_cons, List.not_mem_nil, false_imp_iff, implies_true, and_true] at hliterals
  unfold textWords
  cases t.role <;>
    simp [textRole, lacks_boardCoordinates hnumeral, not_mem_integer hnumeral, hliterals]

theorem read?_boardText (t : BoardText) :
    FootprintItem.read? (boardText t).print = some (.text t.lineForm) := by
  have hparts : quoteParts (boardText t).print =
      [Line.print (textWords t ++ [bare ""]), unquoted t.text, ""] := by
    rw [boardText_eq, quoteParts_print (lacks_textWords (Or.inr rfl) t)]
    have hend : quoteParts (Line.print [bare ""]) = [""] := by decide
    rw [hend]
  have hfront : words (Line.print (textWords t ++ [bare ""])) =
      [textRole t.role, numberText t.position.x, numberText t.position.y, "1", "1", "0", "0.15", "N", "V",
        t.layer.number.repr, "N", ""] := by
    rw [words_print (by simp)]
    · rfl
    · exact (lacks_append _ _).mpr ⟨lacks_textWords (Or.inl rfl) t, by decide⟩
  have hread : TextForm.read? (boardText t).print = some t.lineForm := by
    rw [TextForm.read?, hparts]
    simp [hfront, lookup_textRole, unquoted_eq, BoardText.lineForm, Point.printed]
  have hfirst : (words (boardText t).print).head? = some (textRole t.role) :=
    head?_words_print (by cases t.role <;> decide) _
  obtain ⟨rest, hwords⟩ : ∃ rest, words (boardText t).print = textRole t.role :: rest := by
    cases hwords : words (boardText t).print with
    | nil =>
      rw [hwords] at hfirst
      cases hfirst
    | cons w rest =>
      rw [hwords] at hfirst
      exact ⟨rest, by rw [Option.some.inj hfirst]⟩
  unfold FootprintItem.read?
  rw [hwords, hread]
  cases t.role <;> simp [textRole]

/-! ## Masks -/

theorem readHex_append (n : Nat) (xs ys : List Char) :
    readHex n (xs ++ ys) = (readHex n xs).bind (readHex · ys) := by
  induction xs generalizing n with
  | nil => rfl
  | cons c xs ih =>
    rw [List.cons_append, readHex, readHex]
    cases hexDigits.idxOf? c with
    | none => rfl
    | some d => exact ih _

theorem readHex_digit (n : Nat) {d : Nat} (hd : d < 16) :
    readHex n [(Nat.digitChar d).toUpper] = some (16 * n + d) := by
  have hdigit : ∀ d < 16, hexDigits.idxOf? (Nat.digitChar d).toUpper = some d := by decide
  rw [readHex, hdigit d hd]
  rfl

theorem readHex_toDigits (m : Nat) : readHex 0 ((Nat.toDigits 16 m).map Char.toUpper) = some m := by
  induction m using Nat.strongRecOn with
  | ind m ih =>
    by_cases hm : m < 16
    · rw [Nat.toDigits_of_lt_base hm, List.map_singleton, readHex_digit 0 hm, Nat.mul_zero, Nat.zero_add]
    · rw [Nat.toDigits_of_base_le (by decide) (by omega), List.map_append, readHex_append,
        ih (m / 16) (by omega), Option.bind_some, List.map_singleton, readHex_digit _ (by omega),
        Nat.div_add_mod]

theorem readHex_maskText (m : Nat) : readHex 0 (maskText m).toList = some m := by
  have hzeros : ∀ k, readHex 0 (List.replicate k '0') = some 0 := by
    intro k
    induction k with
    | zero => rfl
    | succ k ih =>
      rw [List.replicate_succ]
      exact ih
  unfold maskText
  rw [String.toList_ofList, readHex_append, hzeros, Option.bind_some, readHex_toDigits]

/-- A bit of the mask is set if it is in the mask of a layer. -/
theorem testBit_layerMask (layers : List Layer) (i : Nat) :
    (layerMask layers).testBit i = layers.any (fun l => l.mask.testBit i) := by
  have hfold : ∀ (n : Nat), (layers.foldl (fun mask l => mask ||| l.mask) n).testBit i =
      (n.testBit i || layers.any (fun l => l.mask.testBit i)) := by
    induction layers with
    | nil => simp
    | cons l layers ih =>
      intro n
      rw [List.foldl_cons, ih, Nat.testBit_or, List.any_cons, Bool.or_assoc]
  rw [layerMask, hfold, Nat.zero_testBit, Bool.false_or]

theorem mem_hexDigits_of_readHex {n m : Nat} {cs : List Char} (h : readHex n cs = some m) :
    ∀ c ∈ cs, c ∈ hexDigits := by
  induction cs generalizing n with
  | nil => simp
  | cons c cs ih =>
    obtain ⟨d, hd, hrest⟩ := Option.bind_eq_some_iff.mp h
    intro c' hc'
    rcases List.mem_cons.mp hc' with rfl | hc'
    · apply List.isSome_idxOf?.mp
      rw [hd, Option.isSome_some]
    · exact ih hrest c' hc'

theorem not_mem_maskText {c : Char} (hc : c ∉ hexDigits) (m : Nat) : c ∉ (maskText m).toList := by
  intro hmem
  exact hc (mem_hexDigits_of_readHex (readHex_maskText m) c hmem)

/-! ## Items of several lines -/

theorem read?_drill (d : Option Drill) : DrillForm.read? (drill d).print = some (Drill.lineForm d) := by
  have hnumber : ∀ x, ' ' ∉ (number x).print.toList := not_mem_number (by decide)
  have hlacks : Line.Lacks ' ' (drill d) := by
    rcases d with _ | (x | ⟨w, h⟩) <;> simp +decide [drill, hnumber]
  have hne : drill d ≠ [] := by rcases d with _ | (x | ⟨w, h⟩) <;> simp [drill, bareWords]
  rw [DrillForm.read?, words_print hne hlacks]
  rcases d with _ | (x | ⟨w, h⟩) <;> simp [drill, bareWords, print_bare, print_number, Drill.lineForm]

/-- The words of a pad after its number. -/
def padWords (p : Pad) : Line :=
  [bare (padShape p.shape), number p.size.x, number p.size.y, bare "0", bare "0", tenths p.rotation]

theorem lacks_padWords {c : Char} (hc : c = ' ' ∨ c = '"') (p : Pad) : Line.Lacks c (padWords p) := by
  have hnumeral : Decimal.isNumeralChar c = false := by rcases hc with rfl | rfl <;> decide
  have hliterals : ∀ text ∈ ["C", "R", "O", "0"], c ∉ (bare text).print.toList := by
    rcases hc with rfl | rfl <;> decide
  simp only [List.forall_mem_cons, List.not_mem_nil, false_imp_iff, implies_true, and_true] at hliterals
  have htenths : c ∉ (tenths p.rotation).print.toList := not_mem_integer hnumeral _
  unfold padWords
  cases p.shape <;> simp [padShape, not_mem_number hnumeral, htenths, hliterals]

theorem quoteParts_shapeLine (p : Pad) :
    quoteParts (Line.print ([bare "Sh"] ++ quoted p.number :: padWords p)) =
      [Line.print ([bare "Sh"] ++ [bare ""]), unquoted p.number, Line.print (bare "" :: padWords p)] := by
  have hrest : Line.Lacks '"' (bare "" :: padWords p) :=
    (lacks_cons _ _).mpr ⟨by decide, lacks_padWords (Or.inr rfl) p⟩
  rw [quoteParts_print (by decide), quoteParts_of_bare hrest]

theorem words_padWords (p : Pad) : words (Line.print (bare "" :: padWords p)) =
    "" :: (padWords p).map Word.print := by
  rw [words_print (List.cons_ne_nil _ _)]
  · rfl
  · exact (lacks_cons _ _).mpr ⟨by decide, lacks_padWords (Or.inl rfl) p⟩

theorem words_layersLine (p : Pad) :
    words (Line.print [bare "At", bare (mounting p.mounting), bare "N",
      bare (maskText (layerMask p.layers))]) =
      ["At", mounting p.mounting, "N", maskText (layerMask p.layers)] := by
  have hmounting : ' ' ∉ (bare (mounting p.mounting)).print.toList := by cases p.mounting <;> decide
  rw [words_print (List.cons_ne_nil _ _)]
  · rfl
  · have hmask : ' ' ∉ (bare (maskText (layerMask p.layers))).print.toList := not_mem_maskText (by decide) _
    simp +decide [hmounting, hmask]

theorem words_positionLine (p : Point) : words (Line.print (bare "Po" :: boardCoordinates p)) =
    ["Po", numberText p.x, numberText p.y] := by
  rw [words_print (List.cons_ne_nil _ _)]
  · rfl
  · exact (lacks_cons _ _).mpr ⟨by decide, lacks_boardCoordinates (by decide) p⟩

/-- **A pad is read** from its lines. -/
theorem read?_pad (p : Pad) :
    PadForm.read? (Line.print ([bare "Sh"] ++ quoted p.number :: padWords p)) (drill p.drill).print
      (Line.print [bare "At", bare (mounting p.mounting), bare "N", bare (maskText (layerMask p.layers))])
      (Line.print (bare "Po" :: boardCoordinates p.position)) = some p.lineForm := by
  rw [PadForm.read?, quoteParts_shapeLine, words_layersLine, words_positionLine]
  simp only [words_padWords]
  simp [padWords, print_bare, print_number, toInt?_tenths, read?_drill, lookup_mounting, readHex_maskText,
    unquoted_eq, Pad.lineForm, Point.printed]

theorem words_triple {head : String} (hhead : ' ' ∉ (bare head).print.toList) (x y z : Float) :
    words (Line.print [bare head, number x, number y, number z]) =
      [head, numberText x, numberText y, numberText z] := by
  have hnumber : ∀ x, ' ' ∉ (number x).print.toList := not_mem_number (by decide)
  rw [words_print (List.cons_ne_nil _ _)]
  · rfl
  · simp [hhead, hnumber]

theorem read?_model (m : ModelRef) :
    ModelForm.read? (Line.print [bare "Na", quoted m.path])
      (Line.print [bare "Of", number (m.offset.x / millimetresPerInch),
        number (m.offset.y / millimetresPerInch), number (m.offset.z / millimetresPerInch)])
      (Line.print [bare "Ro", number m.rotation.x, number m.rotation.y, number m.rotation.z]) =
      some m.lineForm := by
  have hpath : quoteParts (Line.print [bare "Na", quoted m.path]) = ["Na ", unquoted m.path, ""] := by
    have hquotes := quoteParts_print (by decide : Line.Lacks '"' [bare "Na"]) m.path []
    have hend : quoteParts (Line.print [bare ""]) = [""] := by decide
    have hfront : Line.print ([bare "Na"] ++ [bare ""]) = "Na " := by decide
    rw [hend, hfront] at hquotes
    exact hquotes
  rw [ModelForm.read?, hpath, words_triple (by decide), words_triple (by decide)]
  simp [unquoted_eq, ModelRef.lineForm, Triple.printed]

/-! ## Items in order -/

/-- Lines are read as items, whatever follows them. -/
def ReadsAs (lines : List String) (items : List FootprintItem) : Prop :=
  ∀ rest, readItems (lines ++ rest) = (readItems rest).map (items ++ ·)

section
variable {ls ks : List String} {is js : List FootprintItem} {line : String} {item : FootprintItem}

theorem readsAs_nil : ReadsAs [] [] := by
  intro rest
  simp

theorem ReadsAs.append (hl : ReadsAs ls is) (hk : ReadsAs ks js) : ReadsAs (ls ++ ks) (is ++ js) := by
  intro rest
  rw [List.append_assoc, hl, hk, Option.map_map]
  simp [Function.comp_def]

theorem readsAs_line (h : FootprintItem.read? line = some item) : ReadsAs [line] [item] := by
  have hpad : line ≠ "$PAD" := by
    rintro rfl
    have hnone : FootprintItem.read? "$PAD" = none := by decide
    rw [hnone] at h
    cases h
  have hmodel : line ≠ "$SHAPE3D" := by
    rintro rfl
    have hnone : FootprintItem.read? "$SHAPE3D" = none := by decide
    rw [hnone] at h
    cases h
  intro rest
  rw [List.singleton_append, readItems.eq_def]
  simp only [if_neg hpad, if_neg hmodel, h]
  cases readItems rest <;> rfl

theorem readsAs_flatMap {α : Type} {f : α → List String} {g : α → List FootprintItem}
    (h : ∀ a, ReadsAs (f a) (g a)) (as : List α) : ReadsAs (as.flatMap f) (as.flatMap g) := by
  induction as with
  | nil => exact readsAs_nil
  | cons a as ih =>
    rw [List.flatMap_cons, List.flatMap_cons]
    exact (h a).append ih

theorem readsAs_map {α : Type} {f : α → String} {g : α → FootprintItem}
    (h : ∀ a, FootprintItem.read? (f a) = some (g a)) (as : List α) : ReadsAs (as.map f) (as.map g) := by
  rw [← List.flatMap_singleton' (as.map f), ← List.flatMap_singleton' (as.map g), List.flatMap_map,
    List.flatMap_map]
  exact readsAs_flatMap (fun a => readsAs_line (h a)) as

end

theorem readsAs_pad (p : Pad) : ReadsAs ((pad p).map Line.print) [.pad p.lineForm] := by
  have hfirst : Line.print (bareWords ["$PAD"]) = "$PAD" := print_line_singleton _
  have hlast : Line.print (bareWords ["$EndPAD"]) = "$EndPAD" := print_line_singleton _
  have hread := read?_pad p
  rw [padWords, List.singleton_append] at hread
  intro rest
  simp only [pad, List.map_cons, List.map_nil, List.cons_append, List.nil_append, hfirst, hlast, readItems,
    if_true, hread]
  cases readItems rest <;> rfl

/-- **The lines of a primitive** are read as its items. -/
theorem readsAs_primitive (p : Primitive) :
    ReadsAs ((primitive p).map Line.print) p.lineItems := by
  cases p with
  | line start stop width l => exact readsAs_line (read?_segment start stop width l)
  | rect start stop width l =>
    have hfirst := readsAs_line (read?_segment start ⟨stop.x, start.y⟩ width l)
    have hsecond := readsAs_line (read?_segment ⟨stop.x, start.y⟩ stop width l)
    have hthird := readsAs_line (read?_segment stop ⟨start.x, stop.y⟩ width l)
    have hfourth := readsAs_line (read?_segment ⟨start.x, stop.y⟩ start width l)
    exact ((hfirst.append hsecond).append hthird).append hfourth
  | circle center radius width l =>
    exact readsAs_line (read?_circle center ⟨center.x + radius, center.y⟩ width l)
  | arc center start mid stop angle width l => exact readsAs_line (read?_arc center start angle width l)
  | pad p => exact readsAs_pad p

theorem readsAs_assembly (m : Option Mounting) :
    ReadsAs ((assembly m).map Line.print) (m.toList.map .assembly) := by
  cases m with
  | none => exact readsAs_nil
  | some m => exact readsAs_line (read?_assembly m)

theorem readsAs_model (m : Option ModelRef) :
    ReadsAs ((model m).map Line.print) (m.toList.map (.model ·.lineForm)) := by
  cases m with
  | none => exact readsAs_nil
  | some m =>
    have hfirst : Line.print (bareWords ["$SHAPE3D"]) = "$SHAPE3D" := print_line_singleton _
    have hlast : Line.print (bareWords ["$EndSHAPE3D"]) = "$EndSHAPE3D" := print_line_singleton _
    have hread := read?_model m
    have hpad : "$SHAPE3D" ≠ "$PAD" := by decide
    intro rest
    simp only [model, List.map_cons, List.map_nil, List.cons_append, List.nil_append, hfirst, hlast]
    rw [readItems.eq_def]
    simp only [if_neg hpad, if_true, hread]
    cases readItems rest <;> rfl

/-! ## Files -/

/-- The lines of the items of a footprint. -/
def itemLines (f : Footprint) : List Line :=
  assembly f.assembly ++ f.texts.map boardText ++ f.primitives.flatMap primitive ++ model f.model

theorem readItems_itemLines (f : Footprint) :
    readItems ((itemLines f).map Line.print) = some f.lineItems := by
  have hassembly := readsAs_assembly f.assembly
  have htexts := readsAs_map read?_boardText f.texts
  have hprimitives := readsAs_flatMap readsAs_primitive f.primitives
  have hmodel := readsAs_model f.model
  have hall := ((hassembly.append htexts).append hprimitives).append hmodel []
  have hlines : (itemLines f).map Line.print = (assembly f.assembly).map Line.print ++
      f.texts.map (fun t => (boardText t).print) ++
        f.primitives.flatMap (fun p => (primitive p).map Line.print) ++ (model f.model).map Line.print := by
    simp [itemLines, List.map_flatMap, Function.comp_def]
  rw [List.append_nil] at hall
  rw [hlines, hall, readItems, Option.map_some, List.append_nil]
  rfl

/-- The lines before the items. -/
def heading (f : Footprint) : List Line :=
  [bareWords ["PCBNEW-LibModule-V1"], bareWords ["#", "encoding", "utf-8"],
   bareWords ["Units", "mm"], bareWords ["$INDEX"], [bare f.name], bareWords ["$EndINDEX"],
   [bare "$MODULE", bare f.name],
   bareWords ["Po", "0", "0", "0", "15", "00000000", "00000000", "~~"], [bare "Li", bare f.name],
   [bare "Cd", bare f.description], bareWords ["Sc", "0"], bareWords ["Op", "0", "0", "0"]]

def moduleEnd (f : Footprint) : List Line :=
  [[bare "$EndMODULE", bare f.name], bareWords ["$EndLIBRARY"]]

theorem footprint_eq (f : Footprint) : footprint f = heading f ++ (itemLines f ++ moduleEnd f) := by
  simp [footprint, heading, itemLines, moduleEnd]

/-- **The lines of a footprint** are read in order. -/
theorem ofLines?_footprint (f : Footprint) :
    FootprintForm.ofLines? ((footprint f).map Line.print) =
      some ⟨f.name, f.description, f.lineItems⟩ := by
  have hname : Line.print [bare f.name] = f.name := print_line_singleton _
  have hdescription : (Line.print [bare "Cd", bare f.description]).toList.drop 3 =
      f.description.toList := by
    rw [toList_print_line_cons, print_line_singleton]
    rfl
  have htake : ∀ items : List String,
      (items ++ (moduleEnd f).map Line.print).take
        ((items ++ (moduleEnd f).map Line.print).length - 2) = items := by
    intro items
    rw [List.length_append, List.length_map]
    exact List.take_left
  rw [footprint_eq, List.map_append, List.map_append]
  simp only [heading, List.map_cons, List.map_nil, List.cons_append, List.nil_append,
    FootprintForm.ofLines?, htake, readItems_itemLines, hname, hdescription, String.ofList_toList]
  rfl

/-! ## Lines without line feeds -/

@[simp] theorem isPlain_boardCoordinates (p : Point) : Line.IsPlain (boardCoordinates p) := by
  have hnil : Line.IsPlain [] := by decide
  simp [boardCoordinates, hnil]

@[simp] theorem isPlain_maskText (m : Nat) : (bare (maskText m)).IsPlain :=
  not_mem_maskText (by decide) m

@[simp] theorem isPlain_segment (p q : Point) (width : Float) (k : Layer) : (segment p q width k).IsPlain := by
  simp +decide [segment]

theorem isPlain_pad {p : Pad} (hnumber : '\n' ∉ p.number.toList) : ∀ l ∈ pad p, l.IsPlain := by
  have hquoted : (quoted p.number).IsPlain := hnumber
  have hshape : (bare (padShape p.shape)).IsPlain := by cases p.shape <;> decide
  have hmounting : (bare (mounting p.mounting)).IsPlain := by cases p.mounting <;> decide
  have hdrill : (drill p.drill).IsPlain := by
    rcases p.drill with _ | (x | ⟨w, h⟩) <;> simp +decide [drill]
  simp +decide [pad, hquoted, hshape, hmounting, hdrill]

theorem isPlain_primitive {p : Primitive} (hp : ∀ q, p = .pad q → '\n' ∉ q.number.toList) :
    ∀ l ∈ primitive p, l.IsPlain := by
  cases p with
  | line start stop width k => simp [primitive]
  | rect start stop width k => simp [primitive]
  | circle center radius width k => simp +decide [primitive]
  | arc center start mid stop angle width k => simp +decide [primitive]
  | pad q => exact isPlain_pad (hp q rfl)

theorem isPlain_boardText {t : BoardText} (ht : '\n' ∉ t.text.toList) : (boardText t).IsPlain := by
  have hquoted : (quoted t.text).IsPlain := ht
  have hrole : (bare (textRole t.role)).IsPlain := by cases t.role <;> decide
  simp +decide [boardText, hquoted, hrole]

theorem isPlain_model {m : ModelRef} (hm : '\n' ∉ m.path.toList) : ∀ l ∈ model (some m), l.IsPlain := by
  have hquoted : (quoted m.path).IsPlain := hm
  simp +decide [model, hquoted]

section
variable {f : Footprint}

theorem isPlain_footprint (hf : f.LineFree) : ∀ l ∈ footprint f, l.IsPlain := by
  obtain ⟨hname, hf⟩ := List.forall_mem_cons.mp hf
  obtain ⟨hdescription, hf⟩ := List.forall_mem_cons.mp hf
  obtain ⟨hf, hpath⟩ := List.forall_mem_append.mp hf
  obtain ⟨htexts, hnumbers⟩ := List.forall_mem_append.mp hf
  have hbareName : (bare f.name).IsPlain := hname
  have hbareDescription : (bare f.description).IsPlain := hdescription
  have hassembly : ∀ l ∈ assembly f.assembly, l.IsPlain := by
    rcases f.assembly with _ | (_ | _) <;> decide
  have hboardTexts : ∀ t ∈ f.texts, (boardText t).IsPlain :=
    fun t ht => isPlain_boardText (htexts _ (List.mem_map_of_mem ht))
  have hprimitives : ∀ l, ∀ p ∈ f.primitives, l ∈ primitive p → l.IsPlain := by
    intro l p hp
    apply isPlain_primitive
    rintro q rfl
    have hq : q ∈ f.pads := List.mem_filterMap.mpr ⟨.pad q, hp, rfl⟩
    exact hnumbers _ (List.mem_map_of_mem hq)
  have hmodel : ∀ l ∈ model f.model, l.IsPlain := by
    cases hcase : f.model with
    | none => simp [model]
    | some m =>
      apply isPlain_model
      apply hpath
      simp [hcase]
  have hheading : ∀ l ∈ heading f, l.IsPlain := by simp +decide [heading, hbareName, hbareDescription]
  have hending : ∀ l ∈ moduleEnd f, l.IsPlain := by simp +decide [moduleEnd, hbareName]
  intro l hl
  rw [footprint_eq, itemLines] at hl
  simp only [List.mem_append] at hl
  rcases hl with hl | (((hl | hl) | hl) | hl) | hl
  · exact hheading l hl
  · exact hassembly l hl
  · obtain ⟨t, ht, rfl⟩ := List.mem_map.mp hl
    exact hboardTexts t ht
  · obtain ⟨p, hp, hl⟩ := List.mem_flatMap.mp hl
    exact hprimitives l p hp hl
  · exact hmodel l hl
  · exact hending l hl

/-- **A footprint is read** from its file. -/
theorem read?_footprintFile (hf : f.LineFree) :
    FootprintForm.read? (footprintFile f) = some ⟨f.name, f.description, f.lineItems⟩ := by
  have hbroken : ∀ l ∈ footprint f, '\n' ∉ l.print.toList :=
    fun l hl => lineFeed_not_mem_print (isPlain_footprint hf l hl)
  rw [FootprintForm.read?, footprintFile, lines?_print hbroken, Option.bind_some]
  exact ofLines?_footprint f

end

end Legacy

end EdaParts
