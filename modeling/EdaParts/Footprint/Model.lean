import EdaParts.Decimal.Reader
import EdaParts.Footprint.Basic
import EdaParts.Frame
import EdaParts.Json.Layout
import EdaParts.Text.Blank
import EdaParts.Text.Split

/-!
# Models in three dimensions

A vendor record places a model by the identifier it goes by, an origin on the canvas, a height and
three angles. A resolver says which file that is and how it stands there; `Resolver.inDirectory`
looks for it in one directory.

* `ModelNode` : the attributes of a record, read from its document;
* `ModelPlacement` : where it stands in millimetres;
* `Resolver` : from an identifier and a placement to a model, if there is one.
-/

namespace EdaParts

/-- Where a model stands: its origin and height in millimetres, y pointing down, and its angles as
the vendor states them. -/
structure ModelPlacement where
  origin : Point
  height : Float
  rotation : Triple

/-- Finds the model of an identifier at a placement. -/
abbrev Resolver := String → ModelPlacement → Option ModelRef

/-- Points at a file of the directory, under the given name if it is not blank and under the
identifier otherwise; there is no model without either. In models y points up, and angles count the
other way round. -/
def Resolver.inDirectory (directory : String) (name : Option String) : Resolver :=
  fun identifier placement =>
    let file := (name.filter (!Text.isBlankText ·)).getD identifier
    if file.isEmpty then none
    else
      let folder := String.ofList (Text.dropEndWhile (· = '/') directory.toList)
      some
        { path := folder ++ "/" ++ file ++ ".wrl"
          offset := ⟨placement.origin.x, -placement.origin.y, placement.height⟩
          rotation := ⟨-placement.rotation.x, -placement.rotation.y, -placement.rotation.z⟩ }

/-- The attributes of a model record. -/
structure ModelNode where
  identifier : String := ""
  origin : Option String := none
  height : Option Json.Value := none
  rotation : Option String := none

namespace ModelNode

open Json (Layout Value optional)

/-- The depth to which the height of a model may be nested in its document. -/
def heightDepth : Nat := Json.greatestDepth - 2

/-- The attributes as a record; all but the identifier may be left out. -/
def attributes : Layout ModelNode :=
  ⟨"struct SvgNodeAttrs",
    [.of "uuid" .always Json.text fun n identifier => { n with identifier },
      .of "c_origin" .optional (optional Json.text) fun n origin => { n with origin },
      .of "z" .optional (optional (Json.value heightDepth)) fun n height => { n with height },
      .of "c_rotation" .optional (optional Json.text) fun n rotation => { n with rotation }]⟩

/-- A model record, an object around the attributes. -/
def layout : Layout ModelNode :=
  ⟨"struct SvgNode", [⟨"attrs", .always, attributes.read⟩]⟩

/-- Reads the document of a model record. -/
def read (text : String) : Except Json.ReadError ModelNode :=
  (layout.read {}).run text

/-- A number that a text spells between blanks, or zero. -/
def numberOrZero (cs : List Char) : Float :=
  (Decimal.readFloat? (Text.trim cs)).getD 0

/-- Three numbers between commas; what is missing or no number is zero. -/
def readTriple (text : String) : Triple :=
  let values := (Text.pieces ',' text.toList).map numberOrZero
  ⟨values.getD 0 0, values.getD 1 0, values.getD 2 0⟩

/-- The height on the canvas, from a number or from text; anything else is zero. -/
def canvasHeight : Option Value → Float
  | some (.number n) => n.toFloat
  | some (.string s) => numberOrZero s.toList
  | _ => 0

/-- The placement in the frame of a footprint. A model without an origin stands on that of the
footprint. -/
def placement (node : ModelNode) (frame : Frame) : ModelPlacement :=
  { origin :=
      match node.origin with
      | some text =>
        let v := readTriple text
        frame.point ⟨v.x, v.y⟩
      | none => .zero
    height := frame.length (canvasHeight node.height)
    rotation :=
      match node.rotation with
      | some text => readTriple text
      | none => ⟨0, 0, 0⟩ }

end ModelNode

end EdaParts
