import EdaParts.Proofs.Decimal.Coordinates
import EdaParts.Proofs.Modern.Printing
import EdaParts.Proofs.Text.Pieces

/-!
# Parts of an expression

What an expression says is taken from its lists by their heads, whatever order they stand in.

* `Datum.parts?`, `child?` : the list that begins with a head;
* `pointAt?`, `pointsAt?`, `wordAt?` : what such a list holds.
-/

namespace EdaParts.Modern

namespace Datum

def word? : Datum → Option String
  | word cs => some (String.ofList cs)
  | _ => none

def text? : Datum → Option String
  | text cs => some (String.ofList cs)
  | _ => none

/-- The head of a list, and what follows it. -/
def parts? : Datum → Option (String × List Datum)
  | list (word head :: rest) => some (String.ofList head, rest)
  | _ => none

/-- The one word of a list after its head. -/
def onlyWord? : List Datum → Option String
  | [word cs] => some (String.ofList cs)
  | _ => none

def onlyText? : List Datum → Option String
  | [text cs] => some (String.ofList cs)
  | _ => none

def point? : List Datum → Option PrintedPoint
  | [word x, word y] => some ⟨String.ofList x, String.ofList y⟩
  | _ => none

/-- A point and an angle. -/
def turned? : List Datum → Option (PrintedPoint × String)
  | [word x, word y, word angle] => some (⟨String.ofList x, String.ofList y⟩, String.ofList angle)
  | _ => none

/-- What follows the head in the first list that has it. -/
def child? (head : String) (ds : List Datum) : Option (List Datum) :=
  (ds.filterMap parts?).lookup head

def wordAt? (head : String) (ds : List Datum) : Option String :=
  (child? head ds).bind onlyWord?

def textAt? (head : String) (ds : List Datum) : Option String :=
  (child? head ds).bind onlyText?

def pointAt? (head : String) (ds : List Datum) : Option PrintedPoint :=
  (child? head ds).bind point?

/-- The points of a list of them. -/
def pointsAt? (head : String) (ds : List Datum) : Option (List PrintedPoint) :=
  (child? head ds).bind fun points => points.mapM fun d => pointAt? "xy" [d]

/-- The word stands among these. -/
def hasWord (w : String) (ds : List Datum) : Bool :=
  some w ∈ ds.map word?

end Datum

open Datum Modern.Expr

/-! ## Parts of printed expressions -/

theorem dataOf_eq_map (es : List Expr) : dataOf es = es.map datum := by
  induction es with
  | nil => rfl
  | cons e es ih => rw [dataOf, ih, List.map_cons]

theorem datum_atom (s : String) : (atom s).datum = .word s.toList := by
  rw [datum]

@[simp] theorem datum_quoted (s : String) : (quoted s).datum = .text s.toList := by
  rw [datum]

theorem datum_list (head : String) (items : List Expr) :
    (list head items).datum = .list (.word head.toList :: items.map datum) := by
  rw [datum, dataOf_eq_map]

theorem datum_block (head : String) (items body : List Expr) :
    (block head items body).datum = .list (.word head.toList :: (items ++ body).map datum) := by
  rw [datum, dataOf_eq_map, dataOf_eq_map, List.map_append]

@[simp] theorem parts?_list (head : String) (items : List Expr) :
    (list head items).datum.parts? = some (head, items.map datum) := by
  rw [datum_list, parts?, String.ofList_toList]

@[simp] theorem parts?_block (head : String) (items body : List Expr) :
    (block head items body).datum.parts? = some (head, (items ++ body).map datum) := by
  rw [datum_block, parts?, String.ofList_toList]

section
variable {key head : String} {items body : List Expr} {cs : List Char} {ds : List Datum}

@[simp] theorem onlyWord?_atom (s : String) : onlyWord? [(atom s).datum] = some s := by
  rw [datum_atom, onlyWord?, String.ofList_toList]

@[simp] theorem onlyWord?_number (x : Float) : onlyWord? [(number x).datum] = some (numberText x) :=
  onlyWord?_atom _

@[simp] theorem onlyWord?_natural (n : Nat) : onlyWord? [(natural n).datum] = some n.repr :=
  onlyWord?_atom _

theorem point?_number (x y : Float) :
    point? [(number x).datum, (number y).datum] = some ⟨numberText x, numberText y⟩ := by
  rw [number, number, datum_atom, datum_atom, point?, String.ofList_toList, String.ofList_toList]

theorem turned?_number (x y : Float) (angle : String) :
    turned? [(number x).datum, (number y).datum, (atom angle).datum] =
      some (⟨numberText x, numberText y⟩, angle) := by
  rw [number, number, datum_atom, datum_atom, datum_atom, turned?, String.ofList_toList,
    String.ofList_toList, String.ofList_toList]

@[simp] theorem child?_atom_cons (s : String) : child? key ((atom s).datum :: ds) = child? key ds := by
  rw [datum_atom]
  rfl

@[simp] theorem child?_nil (key : String) : child? key [] = none := rfl

@[simp] theorem child?_text_cons : child? key (.text cs :: ds) = child? key ds := rfl

theorem child?_cons {d : Datum} {rest : List Datum} (h : d.parts? = some (head, rest)) :
    child? key (d :: ds) = if key = head then some rest else child? key ds := by
  unfold child?
  rw [List.filterMap_cons, h]
  by_cases hkey : key = head
  · simp [hkey]
  · have hne : (key == head) = false := beq_eq_false_iff_ne.mpr hkey
    simp [List.lookup_cons, hne, hkey]

@[simp] theorem child?_list_cons : child? key ((list head items).datum :: ds) =
    if key = head then some (items.map datum) else child? key ds :=
  child?_cons (parts?_list head items)

@[simp] theorem child?_block_cons : child? key ((block head items body).datum :: ds) =
    if key = head then some ((items ++ body).map datum) else child? key ds :=
  child?_cons (parts?_block head items body)

@[simp] theorem hasWord_nil (w : String) : hasWord w [] = false := rfl

@[simp] theorem hasWord_atom_cons (w s : String) :
    hasWord w ((atom s).datum :: ds) = (decide (w = s) || hasWord w ds) := by
  simp [hasWord, datum_atom, word?]

@[simp] theorem hasWord_list_cons (w : String) :
    hasWord w ((list head items).datum :: ds) = hasWord w ds := by
  simp [hasWord, datum_list, word?]

theorem pointsAt?_list_cons {α : Type} {items : α → List Expr} {printed : α → PrintedPoint}
    (h : ∀ a, point? ((items a).map datum) = some (printed a)) (as : List α) :
    pointsAt? key ((list key (as.map fun a => list "xy" (items a))).datum :: ds) =
      some (as.map printed) := by
  have hpoint : ∀ a, pointAt? "xy" [(list "xy" (items a)).datum] = some (printed a) := by
    simp [pointAt?, h]
  rw [pointsAt?, child?_list_cons, if_pos rfl, Option.bind_some, List.map_map]
  exact Text.mapM_map_eq_some (g := fun d => pointAt? "xy" [d]) hpoint as

end

end EdaParts.Modern
