import EdaParts.Component.Convert
import EdaParts.Component.Reference
import EdaParts.Json.Value
import EdaParts.Text.Split

/-!
# Components from vendor documents

The vendor's answer is a document of a symbol with its package, or of a package alone; which of the
two is told by its type. `Component.ofDocument` takes from it what symbol and footprint need, and
says what is missing.

Numbers may stand in strings. Names lose the blanks at their ends, and blanks and slashes within
them become underscores, since names end up in file names.
-/

namespace EdaParts

namespace Document

open Json (Value)

/-- The type of a document of a package alone; documents of any other type, or of none, hold a
symbol. -/
def packageType : Int := 4

/-- A finite or infinite number, or one that a string spells. -/
def number? : Value → Option Float
  | .number n => some n.toFloat
  | .string s => Decimal.readFloat? (Text.trim s.toList)
  | _ => none

/-- The text of a string without the blanks at its ends, if anything is left. -/
def text? (v : Value) : Option String :=
  (v.string?.map Text.trimmed).filter (!·.isEmpty)

/-- The text of a string without the blanks at its ends, or none at all. -/
def textOrEmpty (v : Value) : String :=
  (text? v).getD ""

/-- A name for files and libraries: without blanks at its ends, and with underscores for spaces and
slashes. -/
def sanitizeName (name : String) : String :=
  Text.substitute '/' ['_'] (Text.substitute ' ' ['_'] (Text.trimmed name))

/-- Two entries of the description of a canvas, by their positions. -/
def canvasPoint? (data : Value) (x y : Nat) : Option Point := do
  let entries := Text.pieces '~' (← (data.get "canvas").string?).toList
  let entry (i : Nat) := do Decimal.readFloat? (Text.trim (← entries[i]?))
  return ⟨← entry x, ← entry y⟩

def symbolOrigin? (data : Value) : Option Point := canvasPoint? data 13 14

def footprintOrigin? (data : Value) : Option Point := canvasPoint? data 16 17

def shapes (data : Value) (drawing : String) : Except Error (List String) :=
  match (data.get "shape").items? with
  | some items => .ok (items.filterMap Value.string?)
  | none => .error (.missingData (drawing ++ " shape data is missing"))

/-- The records of a symbol with their size and center: that of the declared box, or else the origin
of the canvas. -/
def symbol (data : Value) : Outcome SymbolSource := do
  let shapes ← shapes data "Symbol"
  let box := data.get "BBox"
  let width := (number? (box.get "width")).getD 0
  let height := (number? (box.get "height")).getD 0
  let center ←
    match number? (box.get "x"), number? (box.get "y") with
    | some x, some y => pure ⟨x + width / 2, y + height / 2⟩
    | _, _ => do
      Outcome.note .warn "Importer: symbol BBox missing, centering on the canvas origin"
      pure ((symbolOrigin? data).getD .zero)
  return ⟨shapes, center, ⟨width, height⟩⟩

/-- The records of a footprint and their origin. -/
def footprint (data : Value) : Except Error FootprintSource := do
  let shapes ← shapes data "Footprint"
  match footprintOrigin? data with
  | some origin => return ⟨shapes, origin⟩
  | none => throw (.missingData "Footprint canvas origin is missing")

/-- The name, designator, manufacturer and records of a symbol. Question marks at the end of a
designator stand for a number to come. -/
def namedSymbol (info : ComponentInfo) (data : Value) :
    Outcome (ComponentInfo × SymbolSource) := do
  let about := (data.get "head").get "c_para"
  let some name := text? (about.get "name") | throw (.missingData "Symbol name is missing")
  let some designator := text? (about.get "pre")
    | throw (.missingData "Symbol prefix is missing")
  let source ← symbol data
  return (
    { info with
      name := sanitizeName name
      designator := String.ofList (Text.dropEndWhile (· = '?') designator.toList)
      manufacturer := textOrEmpty (about.get "Manufacturer") },
    source)

/-- The name, model, data sheet and records of a package. -/
def namedFootprint (info : ComponentInfo) (package : Value) :
    Except Error (ComponentInfo × FootprintSource) := do
  let data := package.get "dataStr"
  let about := (data.get "head").get "c_para"
  let source ← footprint data
  return (
    { info with
      footprintName := ((text? (package.get "title")).map sanitizeName).getD ""
      modelName := (text? (about.get "3DModel")).map sanitizeName
      datasheet := textOrEmpty (about.get "link") },
    source)

/-- The first text that is not empty. -/
def firstText (a b : String) : String :=
  if a.isEmpty then b else a

/-- The catalog's entries, on top of what symbol and footprint say. A component goes by the name of
its footprint if it has no other, and by the catalog number it was asked for if it has none. -/
def catalogInfo (info : ComponentInfo) (document : Value) (reference : Reference) :
    ComponentInfo :=
  let lcsc := document.get "lcsc"
  { info with
    name := firstText info.name info.footprintName
    datasheet := firstText info.datasheet (textOrEmpty (lcsc.get "url"))
    catalogId :=
      match text? (lcsc.get "number"), reference with
      | some number, _ => number
      | none, .catalog number => number
      | none, .document .. => ""
    description := textOrEmpty (document.get "description")
    surfaceMounted := (document.get "SMT").bool?.getD false }

end Document

open Document in
/-- The component of the vendor's answer to a reference. -/
def Component.ofDocument (document : Json.Value) (reference : Reference) : Outcome Component := do
  let isPackage := (document.get "docType").integer? = some packageType
  let (info, symbol) ←
    if isPackage then pure (({} : ComponentInfo), none)
    else do
      let (info, source) ← namedSymbol {} (document.get "dataStr")
      pure (info, some source)
  let package := if isPackage then document else document.get "packageDetail"
  let (info, footprint) ←
    if package.isObject then do
      let (info, source) ← namedFootprint info package
      pure (info, some source)
    else do
      Outcome.note .warn (s!"Importer: {reference.id} has no package data")
      pure (info, none)
  if symbol.isNone && footprint.isNone then
    throw (.missingData (s!"{reference.id} carries neither a symbol nor a footprint"))
  return ⟨catalogInfo info document reference, symbol, footprint⟩

end EdaParts
