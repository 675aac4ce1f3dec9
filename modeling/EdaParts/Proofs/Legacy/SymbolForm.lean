import Mathlib
import EdaParts.Proofs.Legacy.Entry
import EdaParts.Proofs.Legacy.Reading

/-!
# Symbols read back by position

The lines of a symbol are comments, a definition, fields and graphics. Each is read by the place of its
words.

* `SymbolForm`, `SymbolForm.read?` : what can be read of a symbol;
* `Graphic.ShownAs` : what should be read of a graphic, where an arc may begin at either end;
* `countP_lineWords` : each part of a symbol begins and ends once;
* `symbolEntry_read_by_position` : a symbol whose texts are not broken into lines is read from its entry.
-/

namespace EdaParts.Legacy

/-! ## Forms -/

structure FieldForm where
  number : Nat
  value : String
  position : MilPoint
  visible : Bool
  leftJustified : Bool
  name : Option String
  deriving Repr, DecidableEq

inductive GraphicForm where
  | rectangle (start stop : MilPoint)
  | circle (center : MilPoint) (radius : Int)
  | polyline (points : List MilPoint) (filled : Bool)
  | arc (center : MilPoint) (radius : Int) (first last : MilPoint)
  | bezier (points : List MilPoint)
  | text (text : String) (position : MilPoint) (angle size : Int) (hidden : Bool)
  | pin (pin : Pin)
  deriving Repr, DecidableEq

structure SymbolForm where
  name : String
  designator : String
  part : Nat
  fields : List FieldForm
  graphics : List GraphicForm
  deriving Repr, DecidableEq

/-! ## Reading -/

def point? (x y : String) : Option MilPoint :=
  return ⟨← x.toInt?, ← y.toInt?⟩

/-- The points of a list of coordinates. -/
def points? : List String → Option (List MilPoint)
  | [] => some []
  | [_] => none
  | x :: y :: rest => return (← point? x y) :: (← points? rest)

/-- The points before the last word of a line, as many as declared, and that word. -/
def counted? (count : String) (rest : List String) : Option (List MilPoint × String) := do
  let points ← points? (rest.dropLast.filter (· ≠ ""))
  let mark ← rest.getLast?
  if (← count.toNat?) = points.length then some (points, mark) else none

/-- A word that is one of two. -/
def choice? (yes no word : String) : Option Bool :=
  if word = yes then some true else if word = no then some false else none

/-- The name of a field, if it has one, is the second thing between quotes. -/
def fieldName? (afterWords parts : List String) : Option (Option String) :=
  match afterWords, parts with
  | [], [] => some none
  | [""], [name, ""] => some (some name)
  | _, _ => none

def FieldForm.read? (line : String) : Option FieldForm :=
  match quoteParts line with
  | front :: value :: rest :: parts =>
    match (words front).map String.toList, words rest with
    | ['F' :: number, []], "" :: x :: y :: _ :: _ :: seen :: side :: _ :: more => do
      return {
        number := ← (String.ofList number).toNat?
        value
        position := ← point? x y
        visible := ← choice? "V" "I" seen
        leftJustified := ← choice? "L" "C" side
        name := ← fieldName? more parts }
    | _, _ => none
  | _ => none

def pinTypes : List (String × PinType) :=
  [("U", .unspecified), ("I", .input), ("O", .output), ("B", .bidirectional), ("W", .powerIn)]

def orientations : List (String × PinOrientation) :=
  [("R", .right), ("U", .up), ("L", .left), ("D", .down)]

/-- A graphic of a line, and the part that it belongs to. -/
def GraphicForm.read? (line : String) : Option (String × GraphicForm) :=
  match words line with
  | ["S", x, y, x', y', part, _, _, _] => return (part, .rectangle (← point? x y) (← point? x' y'))
  | ["C", x, y, radius, part, _, _, _] => return (part, .circle (← point? x y) (← radius.toInt?))
  | "P" :: count :: part :: _ :: _ :: rest => do
    let (points, mark) ← counted? count rest
    return (part, .polyline points (← choice? "f" "N" mark))
  | ["A", x, y, radius, _, _, part, _, _, _, x₁, y₁, x₂, y₂] =>
    return (part, .arc (← point? x y) (← radius.toInt?) (← point? x₁ y₁) (← point? x₂ y₂))
  | "B" :: count :: part :: _ :: _ :: rest => do
    let (points, _) ← counted? count rest
    return (part, .bezier points)
  | ["T", angle, x, y, size, hidden, part, _, label, _, _, _, _] =>
    return (part, .text label (← point? x y) (← angle.toInt?) (← size.toInt?) (← choice? "1" "0" hidden))
  | ["X", name, number, x, y, length, orientation, _, _, part, _, type] => do
    return (part, .pin {
      name, number
      position := ← point? x y
      length := ← length.toInt?
      orientation := ← orientations.lookup orientation
      type := ← pinTypes.lookup type })
  | _ => none

/-- A graphic of a line that belongs to the part. -/
def GraphicForm.readOf? (part : Nat) (line : String) : Option GraphicForm := do
  let (word, form) ← GraphicForm.read? line
  if word.toNat? = some part then some form else none

/-- The lines before the first one that says something, and those after it. -/
def cutAt (mark : String) (lines : List String) : List String × List String :=
  (lines.takeWhile (· ≠ mark), (lines.dropWhile (· ≠ mark)).tail)

def SymbolForm.ofLines? (lines : List String) : Option SymbolForm :=
  match lines.dropWhile fun line => (words line).head? ≠ some "DEF" with
  | [] => none
  | definition :: body =>
    let (fields, rest) := cutAt "DRAW" body
    let (graphics, ending) := cutAt "ENDDRAW" rest
    match words definition, ending with
    | ["DEF", name, designator, _, _, _, _, part, _, _], ["ENDDEF"] => do
      let part ← part.toNat?
      return {
        name, designator, part
        fields := ← fields.mapM FieldForm.read?
        graphics := ← graphics.mapM (GraphicForm.readOf? part) }
    | _, _ => none

def SymbolForm.read? (text : String) : Option SymbolForm :=
  (lines? text).bind SymbolForm.ofLines?

end EdaParts.Legacy

namespace EdaParts

open Legacy

/-! ## What should be read -/

/-- The text with apostrophes for quotes. -/
def apostrophed (s : String) : String :=
  String.ofList (s.toList.map fun c => if c = '"' then '\'' else c)

/-- The text with tildes for blanks, and for lack of any text. -/
def tilded (s : String) : String :=
  if s = "" then "~" else String.ofList (s.toList.map fun c => if c = ' ' then '~' else c)

def SymbolField.lineForm (f : SymbolField) : FieldForm :=
  { number := f.key.number
    value := apostrophed f.value
    position := f.position
    visible := f.visible
    leftJustified := f.leftJustified
    name := f.key.legacyName? }

/-- The form shows the graphic. An arc may begin at either end. -/
def Graphic.ShownAs : Graphic → GraphicForm → Prop
  | rectangle start stop, form => form = .rectangle start stop
  | circle center radius, form => form = .circle center radius
  | polyline points filled, form => form = .polyline points filled
  | arc center radius start _ stop, form =>
    form = .arc center radius start stop ∨ form = .arc center radius stop start
  | bezier p0 p1 p2 p3, form => form = .bezier [p0, p1, p2, p3]
  | text label position angle size hidden, form =>
    form = .text (tilded label) position angle size hidden
  | pin p, form => form = .pin { p with name := tilded p.name, number := tilded p.number }

namespace Legacy

open Word

/-! ## Words -/

theorem substitute_single (old new : Char) (s : String) :
    Text.substitute old [new] s = String.ofList (s.toList.map fun c => if c = old then new else c) := by
  rw [← String.toList_inj, Text.toList_substitute, String.toList_ofList]

theorem unquoted_eq (s : String) : unquoted s = apostrophed s :=
  substitute_single '"' '\'' s

theorem print_free (s : String) : (free s).print = tilded s := by
  unfold free tilded
  rw [Word.print, substitute_single]
  simp

theorem blank_not_mem_tilded (s : String) : ' ' ∉ (tilded s).toList := by
  unfold tilded
  split
  · decide
  · rw [String.toList_ofList, List.mem_map]
    rintro ⟨c, -, hc⟩
    split at hc
    · cases hc
    · next hne => exact hne hc

theorem print_bare (s : String) : (bare s).print = s := rfl

theorem print_integer (n : Int) : (integer n).print = n.repr := rfl

theorem point?_repr (p : MilPoint) : point? p.x.repr p.y.repr = some p := by
  simp [point?]

theorem toNat?_toDigits (n : Nat) : (String.ofList (Nat.toDigits 10 n)).toNat? = some n := by
  rw [← Nat.toString_eq_ofList_toDigits]
  exact Nat.toNat?_repr n

theorem choice?_ite {yes no : String} (hne : no ≠ yes) (b : Bool) :
    choice? yes no (if b then yes else no) = some b := by
  cases b <;> simp [choice?, hne]

/-! ## Fields -/

/-- The words of a field between its value and its name. -/
def fieldWords (f : SymbolField) : Line :=
  coordinates f.position ++ [integer fieldTextSize, bare "H", bare (if f.visible then "V" else "I"),
    bare (if f.leftJustified then "L" else "C"), bare "CNN"]

theorem field_eq (f : SymbolField) : field f = [bare ("F" ++ toString f.key.number)] ++
    quoted f.value :: (fieldWords f ++ f.key.legacyName?.toList.map quoted) := by
  simp [field, fieldWords]

theorem lacks_fieldWords {c : Char} (hc : c = ' ' ∨ c = '"') (f : SymbolField) :
    Line.Lacks c (fieldWords f) := by
  have hnumeral : Decimal.isNumeralChar c = false := by rcases hc with rfl | rfl <;> decide
  have hliterals : ∀ text ∈ ["H", "V", "I", "L", "C", "CNN"], c ∉ (bare text).print.toList := by
    rcases hc with rfl | rfl <;> decide
  simp only [List.forall_mem_cons, List.not_mem_nil, false_imp_iff, implies_true, and_true] at hliterals
  unfold fieldWords coordinates
  cases f.visible <;> cases f.leftJustified <;>
    simp [not_mem_integer hnumeral, hliterals]

theorem words_fieldFront (f : SymbolField) :
    words (Line.print ([bare ("F" ++ toString f.key.number)] ++ [bare ""])) =
      ["F" ++ toString f.key.number, ""] := by
  rw [List.singleton_append, words_print (List.cons_ne_nil _ _)]
  · rfl
  · have hkey : ' ' ∉ ("F" ++ toString f.key.number).toList := by cases f.key <;> decide
    exact (lacks_cons _ _).mpr ⟨hkey, by decide⟩

/-- The words after the value, up to the end of the line or to another quote. -/
theorem words_fieldWords (f : SymbolField) {more : Line} (hmore : more.Lacks ' ') :
    words (Line.print (bare "" :: (fieldWords f ++ more))) =
      "" :: f.position.x.repr :: f.position.y.repr :: fieldTextSize.repr :: "H" ::
        (if f.visible then "V" else "I") :: (if f.leftJustified then "L" else "C") :: "CNN" ::
        more.map Word.print := by
  rw [words_print (List.cons_ne_nil _ _)]
  · rfl
  · apply (lacks_cons _ _).mpr
    exact ⟨by decide, (lacks_append _ _).mpr ⟨lacks_fieldWords (Or.inl rfl) f, hmore⟩⟩

/-- What the quotes of a field stand around. -/
theorem quoteParts_field (f : SymbolField) : quoteParts (field f).print =
    Line.print ([bare ("F" ++ toString f.key.number)] ++ [bare ""]) :: unquoted f.value ::
      match f.key.legacyName? with
      | none => [Line.print (bare "" :: (fieldWords f ++ []))]
      | some name => [Line.print (bare "" :: (fieldWords f ++ [bare ""])), unquoted name, ""] := by
  have hkey : Line.Lacks '"' [bare ("F" ++ toString f.key.number)] := by
    have hkey : '"' ∉ ("F" ++ toString f.key.number).toList := by cases f.key <;> decide
    exact (lacks_cons _ _).mpr ⟨hkey, lacks_nil _⟩
  have hwords : Line.Lacks '"' (bare "" :: fieldWords f) :=
    (lacks_cons _ _).mpr ⟨by decide, lacks_fieldWords (Or.inr rfl) f⟩
  rw [field_eq, quoteParts_print hkey]
  cases f.key.legacyName? with
  | none => rw [Option.toList_none, List.map_nil, List.append_nil, quoteParts_of_bare hwords]
  | some name =>
    have hend : quoteParts (Line.print [bare ""]) = [""] := by decide
    have hname := quoteParts_print hwords name []
    rw [hend, List.cons_append, List.cons_append] at hname
    rw [Option.toList_some, List.map_singleton, hname]

/-- **A field is read** from its line. -/
theorem read?_field (f : SymbolField) : FieldForm.read? (field f).print = some f.lineForm := by
  have hnumber : ("F" ++ toString f.key.number).toList = 'F' :: f.key.number.repr.toList := by
    rw [String.toList_append]
    rfl
  have hname : ∀ name, f.key.legacyName? = some name → unquoted name = name := by
    intro name
    cases f.key <;> decide +revert
  rw [FieldForm.read?, quoteParts_field]
  have hvisible := choice?_ite (by simp : "I" ≠ "V") f.visible
  have hleft := choice?_ite (by simp : "C" ≠ "L") f.leftJustified
  cases hkey : f.key.legacyName? with
  | none =>
    simp only [words_fieldFront, words_fieldWords f (lacks_nil ' '), List.map_cons, List.map_nil, hnumber]
    simp [point?_repr, hvisible, hleft, fieldName?, unquoted_eq, SymbolField.lineForm, hkey,
      toNat?_toDigits]
  | some name =>
    simp only [words_fieldFront, words_fieldWords f (by decide : Line.Lacks ' ' [bare ""]), List.map_cons,
      List.map_nil, hnumber, hname name hkey]
    simp [point?_repr, hvisible, hleft, fieldName?, unquoted_eq, SymbolField.lineForm, hkey, print_bare,
      toNat?_toDigits]

/-! ## Graphics -/

theorem lacks_coordinates {c : Char} (hc : Decimal.isNumeralChar c = false) (p : MilPoint) :
    Line.Lacks c (coordinates p) := by
  simp [coordinates, not_mem_integer hc]

theorem lacks_pointList {c : Char} (hc : Decimal.isNumeralChar c = false) (points : List MilPoint) :
    Line.Lacks c (pointList points) := by
  unfold pointList
  split
  · simp [print_bare]
  · intro w hw
    obtain ⟨p, -, hp⟩ := List.mem_flatMap.mp hw
    exact lacks_coordinates hc p w hp

theorem lacks_graphic (part : Nat) (g : Graphic) : Line.Lacks ' ' (graphic part g) := by
  have hinteger : ∀ n, ' ' ∉ (integer n).print.toList := not_mem_integer (by decide)
  have htenths : ∀ x, ' ' ∉ (tenths x).print.toList := fun x => hinteger _
  have hcoordinates : ∀ p, Line.Lacks ' ' (coordinates p) := lacks_coordinates (by decide)
  have hpoints : ∀ ps, Line.Lacks ' ' (pointList ps) := lacks_pointList (by decide)
  have hfree : ∀ s, ' ' ∉ (free s).print.toList := by
    intro s
    rw [print_free]
    exact blank_not_mem_tilded s
  cases g with
  | polyline points filled => cases filled <;> simp_all +decide [graphic]
  | text label position angle size hidden => cases hidden <;> simp_all +decide [graphic]
  | pin p =>
    have htype : ' ' ∉ (bare (pinType p.type)).print.toList := by cases p.type <;> decide
    have horientation : ' ' ∉ (bare (pinOrientation p.orientation)).print.toList := by
      cases p.orientation <;> decide
    simp_all +decide [graphic]
  | _ => simp_all +decide [graphic]

theorem words_graphic (part : Nat) (g : Graphic) :
    words (graphic part g).print = (graphic part g).map Word.print := by
  apply words_print
  · cases g <;> simp [graphic]
  · exact lacks_graphic part g

theorem points?_coordinates (ps : List MilPoint) :
    points? ((ps.flatMap coordinates).map Word.print) = some ps := by
  induction ps with
  | nil => rfl
  | cons p ps ih =>
    rw [List.flatMap_cons, coordinates, List.cons_append, List.cons_append, List.nil_append, List.map_cons,
      List.map_cons, points?, ih, print_integer, print_integer, point?_repr]
    rfl

/-- The place of no points holds an empty word, and the others hold none. -/
theorem filter_pointList (ps : List MilPoint) :
    ((pointList ps).map Word.print).filter (· ≠ "") = (ps.flatMap coordinates).map Word.print := by
  unfold pointList
  split
  · rfl
  · apply List.filter_eq_self.mpr
    intro text htext
    obtain ⟨w, hw, rfl⟩ := List.mem_map.mp htext
    obtain ⟨p, -, hp⟩ := List.mem_flatMap.mp hw
    have hne : ∀ n, (integer n).print ≠ "" := by
      intro n hempty
      have hnumeral := (Decimal.isNumeral_toString_int n).1
      rw [print_integer] at hempty
      apply hnumeral
      rw [show toString n = "" from hempty]
      rfl
    simp only [coordinates, List.mem_cons, List.not_mem_nil, or_false] at hp
    rcases hp with rfl | rfl
    · exact decide_eq_true (hne p.x)
    · exact decide_eq_true (hne p.y)

/-- **As many points follow as are declared.** -/
theorem counted?_pointList (ps : List MilPoint) (mark : String) :
    counted? (integer ps.length).print ((pointList ps ++ [bare mark]).map Word.print) =
      some (ps, mark) := by
  have hcount : (integer ps.length).print.toNat? = some ps.length := Nat.toNat?_repr _
  rw [List.map_append, List.map_singleton, counted?, List.dropLast_concat, filter_pointList,
    points?_coordinates, List.getLast?_concat, hcount]
  simp [print_bare]

theorem lookup_pinType (t : PinType) : pinTypes.lookup (pinType t) = some t := by
  cases t <;> decide

theorem lookup_pinOrientation (o : PinOrientation) : orientations.lookup (pinOrientation o) = some o := by
  cases o <;> decide

/-- **A graphic is read** from its line. -/
theorem read?_graphic (part : Nat) (g : Graphic) :
    ∃ form, GraphicForm.read? (graphic part g).print = some (part.repr, form) ∧ g.ShownAs form := by
  have hpart : (integer part).print = part.repr := rfl
  rw [GraphicForm.read?, words_graphic]
  cases g with
  | rectangle start stop =>
    refine ⟨_, ?_, rfl⟩
    simp [graphic, coordinates, bareWords, print_bare, print_integer, point?_repr, hpart]
  | circle center radius =>
    refine ⟨_, ?_, rfl⟩
    simp [graphic, coordinates, bareWords, print_bare, print_integer, point?_repr, hpart]
  | polyline points filled =>
    have hpoints := counted?_pointList points (if filled then "f" else "N")
    have hfilled := choice?_ite (by simp : "N" ≠ "f") filled
    refine ⟨_, ?_, rfl⟩
    simp only [graphic, bareWords, List.map_append, List.map_cons, List.map_nil, List.cons_append,
      List.nil_append, print_bare] at hpoints ⊢
    simp [hpoints, hfilled, hpart]
  | arc center radius start mid stop =>
    have hends : counterClockwise center start mid stop = (start, stop) ∨
        counterClockwise center start mid stop = (stop, start) := by
      unfold counterClockwise
      dsimp only
      split
      · exact Or.inl rfl
      · exact Or.inr rfl
    rcases hends with hends | hends
    · refine ⟨.arc center radius start stop, ?_, Or.inl rfl⟩
      simp [graphic, hends, coordinates, bareWords, print_bare, print_integer, point?_repr, hpart]
    · refine ⟨.arc center radius stop start, ?_, Or.inr rfl⟩
      simp [graphic, hends, coordinates, bareWords, print_bare, print_integer, point?_repr, hpart]
  | bezier p0 p1 p2 p3 =>
    have hpoints := counted?_pointList [p0, p1, p2, p3] "N"
    have hcount : (integer ([p0, p1, p2, p3].length : Nat)).print = "4" := by
      rw [List.length_cons, List.length_cons, List.length_cons, List.length_singleton]
      decide
    refine ⟨_, ?_, rfl⟩
    rw [hcount] at hpoints
    simp only [graphic, bareWords, List.map_append, List.map_cons, List.map_nil, List.cons_append,
      List.nil_append, print_bare] at hpoints ⊢
    simp [hpoints, hpart]
  | text label position angle size hidden =>
    have hhidden := choice?_ite (by simp : "0" ≠ "1") hidden
    refine ⟨_, ?_, rfl⟩
    simp [graphic, coordinates, bareWords, print_bare, print_integer, print_free, point?_repr, hpart, hhidden]
  | pin p =>
    refine ⟨_, ?_, rfl⟩
    simp [graphic, coordinates, print_bare, print_integer, print_free, point?_repr, hpart, lookup_pinType,
      lookup_pinOrientation]

theorem readOf?_graphic (part : Nat) (g : Graphic) :
    ∃ form, GraphicForm.readOf? part (graphic part g).print = some form ∧ g.ShownAs form := by
  obtain ⟨form, hread, hshown⟩ := read?_graphic part g
  refine ⟨form, ?_, hshown⟩
  have hpart : part.repr.toNat? = some part := Nat.toNat?_repr part
  rw [GraphicForm.readOf?, hread]
  simp

/-! ## The lines of a symbol -/

section
variable {s : Symbol}

/-- The lines before the fields. -/
def preamble (s : Symbol) : List Line :=
  [[bare "#"], [bare "#", bare s.name], [bare "#"], bare "DEF" :: bare s.name :: settings s]

theorem symbol_eq_preamble (s : Symbol) :
    symbol s = preamble s ++ ((bodyLines s).tail ++ [[bare "ENDDEF"]]) :=
  symbol_eq s

theorem lineFeed_not_mem_preamble (hname : '\n' ∉ s.name.toList) (hdesignator : '\n' ∉ s.designator.toList) :
    ∀ l ∈ preamble s, '\n' ∉ l.print.toList := by
  have hname : (bare s.name).IsPlain := hname
  have hdesignator : (bare s.designator).IsPlain := hdesignator
  have hbanner : Line.IsPlain [bare "#", bare s.name] := by simp +decide [hname]
  have hdefinition : Line.IsPlain (bare "DEF" :: bare s.name :: settings s) := by
    simp +decide [settings, bareWords, hname, hdesignator]
  intro l hl
  simp only [preamble, List.mem_cons, List.not_mem_nil, or_false] at hl
  rcases hl with rfl | rfl | rfl | rfl
  · decide
  · exact lineFeed_not_mem_print hbanner
  · decide
  · exact lineFeed_not_mem_print hdefinition

/-- No line of a symbol is broken. -/
theorem lineFeed_not_mem_symbol (hs : s.LineFree) : ∀ l ∈ symbol s, '\n' ∉ l.print.toList := by
  intro l hl
  rw [symbol_eq_preamble, List.mem_append, List.mem_append, List.mem_singleton] at hl
  rcases hl with hl | hl | rfl
  · exact lineFeed_not_mem_preamble (hs _ List.mem_cons_self)
      (hs _ (List.mem_cons_of_mem _ List.mem_cons_self)) l hl
  · exact lineFeed_not_mem hs (List.mem_of_mem_tail hl)
  · decide

theorem words_definition (hname : ' ' ∉ s.name.toList) (hdesignator : ' ' ∉ s.designator.toList) :
    words (Line.print (bare "DEF" :: bare s.name :: settings s)) =
      ["DEF", s.name, s.designator, "0", "40", "Y", "Y", s.part.repr, "F", "N"] := by
  have hpart : ' ' ∉ (integer s.part).print.toList := not_mem_integer (by decide) _
  rw [words_print (List.cons_ne_nil _ _)]
  · rfl
  · apply (lacks_cons _ _).mpr ⟨by decide, (lacks_cons _ _).mpr ⟨hname, ?_⟩⟩
    apply (lacks_cons _ _).mpr ⟨hdesignator, ?_⟩
    simp +decide [bareWords, hpart]

theorem cutAt_append {mark : String} {xs ys : List String} (h : mark ∉ xs) :
    cutAt mark (xs ++ mark :: ys) = (xs, ys) := by
  have hne : ∀ x ∈ xs, decide (x ≠ mark) = true := by
    intro x hx
    rw [decide_eq_true_iff]
    rintro rfl
    exact h hx
  unfold cutAt
  rw [List.takeWhile_append_of_pos hne, List.dropWhile_append_of_pos hne]
  simp

/-- The lines of a symbol in order. -/
theorem map_print_symbol (s : Symbol) : (symbol s).map Line.print =
    "#" :: Line.print [bare "#", bare s.name] :: "#" ::
      Line.print (bare "DEF" :: bare s.name :: settings s) ::
        (s.fields.map (fun f => (field f).print) ++ "DRAW" ::
          (s.graphics.map (fun g => (graphic s.part g).print) ++ "ENDDRAW" :: ["ENDDEF"])) := by
  have hhash : Line.print [bare "#"] = "#" := print_line_singleton _
  have hdraw : Line.print [bare "DRAW"] = "DRAW" := print_line_singleton _
  have henddraw : Line.print [bare "ENDDRAW"] = "ENDDRAW" := print_line_singleton _
  have henddef : Line.print [bare "ENDDEF"] = "ENDDEF" := print_line_singleton _
  simp [symbol_eq, bodyLines, hhash, hdraw, henddraw, henddef, Function.comp_def]

/-- **The lines of a symbol** are read by position. -/
theorem ofLines?_symbol (hname : ' ' ∉ s.name.toList) (hdesignator : ' ' ∉ s.designator.toList) :
    ∃ form, SymbolForm.ofLines? ((symbol s).map Line.print) = some form ∧ form.name = s.name ∧
      form.designator = s.designator ∧ form.part = s.part ∧
      form.fields = s.fields.map SymbolField.lineForm ∧
      List.Forall₂ Graphic.ShownAs s.graphics form.graphics := by
  choose shown hread hshown using readOf?_graphic s.part
  have hfields : (s.fields.map fun f => (field f).print).mapM FieldForm.read? =
      some (s.fields.map SymbolField.lineForm) := Text.mapM_map_eq_some read?_field s.fields
  have hgraphics : (s.graphics.map fun g => (graphic s.part g).print).mapM
      (GraphicForm.readOf? s.part) = some (s.graphics.map shown) :=
    Text.mapM_map_eq_some hread s.graphics
  -- A line that ends a list of others is none of them, since it cannot be read.
  have hdraw : "DRAW" ∉ s.fields.map fun f => (field f).print := by
    intro hmem
    obtain ⟨f, -, hf⟩ := List.mem_map.mp hmem
    have hnone : FieldForm.read? "DRAW" = none := by decide
    have hsome := read?_field f
    rw [hf, hnone] at hsome
    cases hsome
  have henddraw : "ENDDRAW" ∉ s.graphics.map fun g => (graphic s.part g).print := by
    intro hmem
    obtain ⟨g, -, hg⟩ := List.mem_map.mp hmem
    have hnone : GraphicForm.read? "ENDDRAW" = none := by decide
    obtain ⟨form, hsome, -⟩ := read?_graphic s.part g
    rw [hg, hnone] at hsome
    cases hsome
  have hhash : (words "#").head? = some "#" := by decide
  have hbanner : (words (Line.print [bare "#", bare s.name])).head? = some "#" :=
    head?_words_print (by decide) _
  have hpart : s.part.repr.toNat? = some s.part := Nat.toNat?_repr s.part
  have hdefinition := words_definition hname hdesignator
  refine ⟨⟨s.name, s.designator, s.part, s.fields.map SymbolField.lineForm, s.graphics.map shown⟩, ?_, rfl,
    rfl, rfl, rfl, ?_⟩
  · rw [map_print_symbol]
    simp [-List.mapM_map, SymbolForm.ofLines?, hhash, hbanner, hdefinition, cutAt_append hdraw,
      cutAt_append henddraw, hfields, hgraphics]
  · rw [List.forall₂_map_right_iff]
    exact List.forall₂_same.mpr fun g _ => hshown g

/-- The words that the parts of a symbol begin and end with. -/
def lineWords : List String := ["DEF", "DRAW", "ENDDRAW", "ENDDEF"]

theorem head?_words_field_eq (f : SymbolField) :
    (words (field f).print).head? = some ("F" ++ toString f.key.number) := by
  have hfirst : ' ' ∉ (bare ("F" ++ toString f.key.number)).print.toList := by cases f.key <;> decide
  rw [field_eq, List.singleton_append, head?_words_print hfirst]
  rfl

theorem head?_words_field (f : SymbolField) {key : String} (hkey : key ∈ lineWords) :
    (words (field f).print).head? ≠ some key := by
  have hne : ∀ key ∈ lineWords, some ("F" ++ toString f.key.number) ≠ some key := by
    cases f.key <;> decide
  rw [head?_words_field_eq]
  exact hne key hkey

theorem head?_words_graphic (part : Nat) (g : Graphic) {key : String} (hkey : key ∈ lineWords) :
    (words (graphic part g).print).head? ≠ some key := by
  have hne : ∀ first ∈ ["S", "C", "P", "A", "B", "T", "X"], ∀ key ∈ lineWords, some first ≠ some key := by
    decide
  rw [words_graphic]
  cases g <;> exact hne _ (by simp [print_bare]) key hkey

/-- **Each part of a symbol begins and ends once.** -/
theorem countP_lineWords (s : Symbol) {key : String} (hkey : key ∈ lineWords) :
    ((symbol s).map Line.print).countP (fun line => (words line).head? = some key) = 1 := by
  have hbanner : (words (Line.print [bare "#", bare s.name])).head? = some "#" :=
    head?_words_print (by decide) _
  have hdefinition : (words (Line.print (bare "DEF" :: bare s.name :: settings s))).head? = some "DEF" :=
    head?_words_print (by decide) _
  have hfields : (s.fields.map fun f => (field f).print).countP
      (fun line => (words line).head? = some key) = 0 := by
    rw [List.countP_eq_zero]
    intro line hline
    obtain ⟨f, -, rfl⟩ := List.mem_map.mp hline
    simpa using head?_words_field f hkey
  have hgraphics : (s.graphics.map fun g => (graphic s.part g).print).countP
      (fun line => (words line).head? = some key) = 0 := by
    rw [List.countP_eq_zero]
    intro line hline
    obtain ⟨g, -, rfl⟩ := List.mem_map.mp hline
    simpa using head?_words_graphic s.part g hkey
  have hhash : (words "#").head? = some "#" := by decide
  have hdraw : (words "DRAW").head? = some "DRAW" := by decide
  have henddraw : (words "ENDDRAW").head? = some "ENDDRAW" := by decide
  have henddef : (words "ENDDEF").head? = some "ENDDEF" := by decide
  rw [map_print_symbol]
  simp only [List.countP_cons, List.countP_append, List.countP_nil, hbanner, hdefinition, hfields, hgraphics,
    hhash, hdraw, henddraw, henddef]
  simp only [lineWords, List.mem_cons, List.not_mem_nil, or_false] at hkey
  rcases hkey with rfl | rfl | rfl | rfl <;> rfl

/-- **The entry of a symbol is read by position**, if no text of it is broken into lines and no blank is in
its name or its designator. All fields and graphics are read in order, and each part begins and ends
once. -/
theorem symbolEntry_read_by_position (hs : s.LineFree) (hname : ' ' ∉ s.name.toList)
    (hdesignator : ' ' ∉ s.designator.toList) :
    (∃ form, SymbolForm.read? (symbolEntry s) = some form ∧ form.name = s.name ∧
      form.designator = s.designator ∧ form.part = s.part ∧
      form.fields = s.fields.map SymbolField.lineForm ∧
      List.Forall₂ Graphic.ShownAs s.graphics form.graphics) ∧
    ∃ lines, lines? (symbolEntry s) = some lines ∧
      ∀ key ∈ lineWords, lines.countP (fun line => (words line).head? = some key) = 1 := by
  have hlines : lines? (symbolEntry s) = some ((symbol s).map Line.print) :=
    lines?_print (lineFeed_not_mem_symbol hs)
  constructor
  · rw [SymbolForm.read?, hlines]
    exact ofLines?_symbol hname hdesignator
  · exact ⟨_, hlines, fun key hkey => countP_lineWords s hkey⟩

end

/-- A symbol with a quote in a field, a blank in the name of a pin, and an arc. -/
def drawnResistor : Symbol :=
  { name := "R1"
    designator := "R"
    part := 1
    fields := [⟨.value, "10 \"k\"", ⟨0, -50⟩, true, false⟩]
    graphics := [.arc ⟨0, 0⟩ 10 ⟨10, 0⟩ ⟨0, 10⟩ ⟨-10, 0⟩, .pin ⟨"a b", "", .input, ⟨0, 0⟩, 100, .left⟩] }

theorem symbolEntry_read_by_position_resistor :
    ∃ form, SymbolForm.read? (symbolEntry drawnResistor) = some form ∧ form.name = "R1" ∧
      form.fields = [⟨1, "10 'k'", ⟨0, -50⟩, true, false, none⟩] ∧
      form.graphics.getLast? = some (.pin ⟨"a~b", "~", .input, ⟨0, 0⟩, 100, .left⟩) := by
  have hfree : drawnResistor.LineFree := by
    unfold Symbol.LineFree
    decide
  obtain ⟨⟨form, hread, hname, -, -, hfields, hgraphics⟩, -⟩ :=
    symbolEntry_read_by_position hfree (by decide) (by decide)
  refine ⟨form, hread, hname, ?_, ?_⟩
  · rw [hfields]
    decide
  · obtain ⟨arc, rest, -, hrest, hform⟩ := List.forall₂_cons_left_iff.mp hgraphics
    obtain ⟨pin, rest, hpin, hnil, rfl⟩ := List.forall₂_cons_left_iff.mp hrest
    obtain rfl := List.forall₂_nil_left_iff.mp hnil
    have hname : tilded "a b" = "a~b" := by decide
    have hnumber : tilded "" = "~" := by decide
    rw [hform, hpin, hname, hnumber]
    rfl

end Legacy

end EdaParts
