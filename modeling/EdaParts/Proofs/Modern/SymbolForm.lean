import Mathlib
import EdaParts.Proofs.Modern.Entry
import EdaParts.Proofs.Modern.Parts

/-!
# Symbols read back

A symbol is read from what its expression says: its name, its properties, and one form for each graphic,
with texts as they are and numbers as they are printed.

* `SymbolForm`, `SymbolForm.read?` : what can be read of a symbol;
* `Symbol.form` : what should be read of one;
* `read?_datum_symbol` : it is read of every symbol.
-/

namespace EdaParts.Modern

open Datum Modern.Expr

/-! ## Forms -/

structure PropertyForm where
  name : String
  value : String
  number : Nat
  position : PrintedPoint
  leftJustified : Bool
  hidden : Bool
  deriving Repr, DecidableEq

structure PinForm where
  name : String
  number : String
  type : PinType
  position : PrintedPoint
  orientation : PinOrientation
  length : String
  deriving Repr, DecidableEq

inductive GraphicForm where
  | rectangle (start stop : PrintedPoint)
  | circle (center : PrintedPoint) (radius : String)
  | polyline (points : List PrintedPoint) (filled : Bool)
  | arc (start mid stop : PrintedPoint)
  | bezier (points : List PrintedPoint)
  | text (text : String) (position : PrintedPoint) (angle size : String) (hidden : Bool)
  | pin (pin : PinForm)
  deriving Repr, DecidableEq

/-- What stands in a symbol after its name. -/
inductive SymbolItem where
  | setting (key value : String)
  | property (property : PropertyForm)
  | unit (part : Nat) (graphics : List GraphicForm)
  deriving Repr, DecidableEq

structure SymbolForm where
  name : String
  items : List SymbolItem
  deriving Repr, DecidableEq

/-! ## Reading -/

def PropertyForm.read? (d : Datum) : Option PropertyForm :=
  match d.parts? with
  | some ("property", .text name :: .text value :: rest) => do
    let number ← wordAt? "id" rest
    let (position, _) ← (child? "at" rest).bind turned?
    let effects ← child? "effects" rest
    return {
      name := String.ofList name
      value := String.ofList value
      number := ← number.toNat?
      position
      leftJustified := decide (wordAt? "justify" effects = some "left")
      hidden := hasWord "hide" effects }
  | _ => none

/-- The name of a pin without the braces around what the bar is drawn over. -/
def unbarred (name : List Char) : List Char :=
  match name with
  | '~' :: '\x7b' :: rest => if rest.getLast? = some '\x7d' then '~' :: rest.dropLast else name
  | _ => name

def pinTypes : List (String × PinType) :=
  [("unspecified", .unspecified), ("input", .input), ("output", .output),
    ("bidirectional", .bidirectional), ("power_in", .powerIn)]

/-- Where a pin of an angle points. -/
def orientations : List (String × PinOrientation) :=
  [("0", .right), ("90", .up), ("180", .left), ("270", .down)]

def PinForm.read? : List Datum → Option PinForm
  | .word type :: .word _ :: rest => do
    let (position, angle) ← (child? "at" rest).bind turned?
    let name ← (child? "name" rest).bind (·.head?)
    let number ← (child? "number" rest).bind (·.head?)
    return {
      name := String.ofList (unbarred (← name.text?).toList)
      number := ← number.text?
      type := ← pinTypes.lookup (String.ofList type)
      position
      orientation := ← orientations.lookup angle
      length := ← wordAt? "length" rest }
  | _ => none

/-- The size of a font that is as wide as high. -/
def fontSize? (effects : List Datum) : Option String := do
  let size ← ((child? "font" effects).bind (child? "size")).bind point?
  if size.x = size.y then some size.x else none

def filled? (ds : List Datum) : Option Bool :=
  ((child? "fill" ds).bind (wordAt? "type")).bind fun style =>
    [("outline", true), ("none", false)].lookup style

def GraphicForm.read? (d : Datum) : Option GraphicForm :=
  match d.parts? with
  | some ("rectangle", ds) => return .rectangle (← pointAt? "start" ds) (← pointAt? "end" ds)
  | some ("circle", ds) => return .circle (← pointAt? "center" ds) (← wordAt? "radius" ds)
  | some ("polyline", ds) => return .polyline (← pointsAt? "pts" ds) (← filled? ds)
  | some ("arc", ds) =>
    return .arc (← pointAt? "start" ds) (← pointAt? "mid" ds) (← pointAt? "end" ds)
  | some ("bezier", ds) => return .bezier (← pointsAt? "pts" ds)
  | some ("text", .text label :: ds) => do
    let (position, angle) ← (child? "at" ds).bind turned?
    let effects ← child? "effects" ds
    return .text (String.ofList label) position angle (← fontSize? effects) (hasWord "hide" effects)
  | some ("pin", ds) => return .pin (← PinForm.read? ds)
  | _ => none

/-- The number of a part in the name of its unit, which follows the name of the symbol. -/
def unitPart? (name unit : List Char) : Option Nat :=
  if name <+: unit then
    match Text.pieces '_' (unit.drop name.length) with
    | [[], digits, ['1']] => (String.ofList digits).toNat?
    | _ => none
  else none

def SymbolItem.read? (name : List Char) (d : Datum) : Option SymbolItem :=
  match d.parts? with
  | some ("property", _) => return .property (← PropertyForm.read? d)
  | some ("symbol", .text label :: ds) =>
    return .unit (← unitPart? name label) (← ds.mapM GraphicForm.read?)
  | some (key, ds) => return .setting key (← onlyWord? ds)
  | none => none

def SymbolForm.read? (d : Datum) : Option SymbolForm :=
  match d.parts? with
  | some ("symbol", .text name :: ds) =>
    return ⟨String.ofList name, ← ds.mapM (SymbolItem.read? name)⟩
  | _ => none

end EdaParts.Modern

namespace EdaParts

/-! ## What should be read -/

open Modern

def SymbolField.form (f : SymbolField) : PropertyForm :=
  { name := f.key.propertyName
    value := f.value
    number := f.key.number
    position := f.position.printed
    leftJustified := f.leftJustified
    hidden := !f.visible }

def Pin.form (p : Pin) : PinForm :=
  { name := p.name
    number := p.number
    type := p.type
    position := p.position.printed
    orientation := p.orientation
    length := numberText (millimetres p.length) }

def Graphic.form : Graphic → GraphicForm
  | rectangle start stop => .rectangle start.printed stop.printed
  | circle center radius => .circle center.printed (numberText (millimetres radius))
  | polyline points filled => .polyline (points.map MilPoint.printed) filled
  | arc _ _ start mid stop => .arc start.printed mid.printed stop.printed
  | bezier p0 p1 p2 p3 => .bezier [p0.printed, p1.printed, p2.printed, p3.printed]
  | text label position angle size hidden =>
    .text label position.printed (numberText (Float.ofInt angle / 10))
      (numberText (Float.ofInt size * millimetresPerMil)) hidden
  | pin p => .pin p.form

def Symbol.form (s : Symbol) : SymbolForm :=
  { name := s.name
    items := .setting "in_bom" "yes" :: .setting "on_board" "yes" ::
      s.fields.map (.property ·.form) ++ [.unit s.part (s.graphics.map Graphic.form)] }

namespace Modern

open Datum Modern.Expr

/-! ## Symbols -/

@[simp] theorem point?_coordinates (p : MilPoint) :
    point? ((coordinates p).map datum) = some p.printed :=
  point?_number _ _

@[simp] theorem turned?_coordinates (p : MilPoint) (angle : String) :
    turned? ((coordinates p).map datum ++ [(atom angle).datum]) = some (p.printed, angle) :=
  turned?_number _ _ _

@[simp] theorem turned?_coordinates_number (p : MilPoint) (x : Float) :
    turned? ((coordinates p).map datum ++ [(number x).datum]) = some (p.printed, numberText x) :=
  turned?_coordinates p _

@[simp] theorem turned?_coordinates_natural (p : MilPoint) (n : Nat) :
    turned? ((coordinates p).map datum ++ [(natural n).datum]) = some (p.printed, n.repr) :=
  turned?_coordinates p _

@[simp] theorem pointsAt?_pointList (points : List MilPoint) (ds : List Datum) :
    pointsAt? "pts" ((pointList points).datum :: ds) = some (points.map MilPoint.printed) :=
  pointsAt?_list_cons point?_coordinates points

@[simp] theorem filled?_fill (points : List MilPoint) (filled : Bool) :
    filled? [(pointList points).datum, pen.datum, (fill (if filled then "outline" else "none")).datum] =
      some filled := by
  cases filled <;> simp [filled?, pointList, pen, fill, wordAt?, List.lookup]

theorem read?_datum_property (f : SymbolField) :
    PropertyForm.read? (property f).datum = some f.form := by
  rw [PropertyForm.read?, property, parts?_list]
  cases hleft : f.leftJustified <;> cases hvisible : f.visible <;>
    simp [wordAt?, SymbolField.form, standardFont, font, hiddenMark, hleft, hvisible]

/-- **The name of a pin** is found again without the bar. -/
theorem unbarred_pinName (name : String) : unbarred (pinName name).toList = name.toList := by
  unfold pinName
  split
  · next c cs h =>
    rw [h, String.toList_ofList]
    have hbar : '~' :: '\x7b' :: c :: cs ++ ['\x7d'] = '~' :: '\x7b' :: (c :: cs ++ ['\x7d']) := rfl
    rw [hbar, unbarred, List.getLast?_concat, if_pos rfl, List.dropLast_concat]
  · next h =>
    unfold unbarred
    split
    · next rest hrest => exact absurd hrest (h '\x7b' rest)
    · rfl

theorem lookup_pinType (t : PinType) : pinTypes.lookup (pinType t) = some t := by
  cases t <;> decide

theorem lookup_pinAngle (o : PinOrientation) :
    orientations.lookup (pinAngle o).repr = some o := by
  cases o <;> decide

theorem read?_datum_pin (p : Pin) :
    GraphicForm.read? (pin p).datum = some (.pin p.form) := by
  rw [GraphicForm.read?, pin, parts?_block]
  simp only [List.map_cons, List.map_nil, datum_atom, List.cons_append, List.nil_append]
  simp [Pin.form, wordAt?, length, PinForm.read?, text?, lookup_pinType, lookup_pinAngle, unbarred_pinName]

theorem read?_datum_graphic (g : Graphic) :
    GraphicForm.read? (graphic g).datum = some g.form := by
  cases g with
  | rectangle start stop =>
    rw [graphic, GraphicForm.read?, parts?_list]
    simp [pointAt?, Graphic.form]
  | circle center radius =>
    rw [graphic, GraphicForm.read?, parts?_list]
    simp [pointAt?, wordAt?, length, Graphic.form]
  | polyline points filled =>
    rw [graphic, GraphicForm.read?, parts?_list]
    simp [Graphic.form]
  | arc center radius start mid stop =>
    rw [graphic, GraphicForm.read?, parts?_list]
    simp [pointAt?, Graphic.form]
  | bezier p0 p1 p2 p3 =>
    rw [graphic, GraphicForm.read?, parts?_list]
    simp [Graphic.form]
  | text label position angle size hidden =>
    rw [graphic, GraphicForm.read?, parts?_list]
    cases hidden <;> simp [fontSize?, font, point?_number, hiddenMark, Graphic.form]
  | pin p => exact read?_datum_pin p

theorem unitPart?_unit (name : String) (part : Nat) :
    unitPart? name.toList (name ++ "_" ++ toString part ++ "_1").toList = some part := by
  have hdigits : '_' ∉ (toString part).toList :=
    Decimal.not_mem_of_isNumeral (Decimal.isNumeral_toString_nat part) (by decide)
  have hunit : (name ++ "_" ++ toString part ++ "_1").toList =
      name.toList ++ ('_' :: ((toString part).toList ++ '_' :: ['1'])) := by simp
  have hpieces : Text.pieces '_' ('_' :: ((toString part).toList ++ '_' :: ['1'])) =
      [[], (toString part).toList, ['1']] := by
    rw [Text.pieces, if_pos rfl, Text.pieces_append_cons hdigits]
    rfl
  rw [unitPart?, hunit, if_pos (List.prefix_append _ _), List.drop_left, hpieces]
  change (String.ofList (toString part).toList).toNat? = some part
  rw [String.ofList_toList]
  exact Nat.toNat?_repr part

theorem read?_datum_unit (s : Symbol) :
    SymbolItem.read? s.name.toList
      (block "symbol" [quoted (s.name ++ "_" ++ toString s.part ++ "_1")] (s.graphics.map graphic)).datum =
      some (.unit s.part (s.graphics.map Graphic.form)) := by
  have hgraphics : ((s.graphics.map graphic).map datum).mapM GraphicForm.read? =
      some (s.graphics.map Graphic.form) := by
    rw [List.map_map]
    exact Text.mapM_map_eq_some read?_datum_graphic s.graphics
  rw [SymbolItem.read?, parts?_block]
  simp only [List.cons_append, List.nil_append, List.map_cons, datum_quoted, unitPart?_unit, hgraphics]
  rfl

theorem read?_datum_setting (name : List Char) (key value : String) (hproperty : key ≠ "property")
    (hsymbol : key ≠ "symbol") :
    SymbolItem.read? name (list key [atom value]).datum = some (.setting key value) := by
  rw [SymbolItem.read?, parts?_list]
  simp [hsymbol]

/-- **A symbol is read** from what its expression says. -/
theorem read?_datum_symbol (s : Symbol) : SymbolForm.read? (symbol s).datum = some s.form := by
  have hproperty : ∀ f : SymbolField, SymbolItem.read? s.name.toList (property f).datum =
      some (.property f.form) := by
    intro f
    have hform := read?_datum_property f
    rw [property] at hform ⊢
    simp only [SymbolItem.read?, parts?_list, hform]
    rfl
  have hproperties : ((s.fields.map property).map datum).mapM (SymbolItem.read? s.name.toList) =
      some (s.fields.map fun f => .property f.form) := by
    rw [List.map_map]
    exact Text.mapM_map_eq_some hproperty s.fields
  have hbom := read?_datum_setting s.name.toList "in_bom" "yes" (by simp) (by simp)
  have hboard := read?_datum_setting s.name.toList "on_board" "yes" (by simp) (by simp)
  rw [SymbolForm.read?, symbol, parts?_block]
  simp only [List.cons_append, List.nil_append, List.map_cons, List.map_append, datum_quoted,
    List.mapM_cons, List.mapM_append, hbom, hboard, hproperties, read?_datum_unit, String.ofList_toList]
  rfl

end Modern

end EdaParts
