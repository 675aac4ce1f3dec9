import EdaParts.Decimal.Notation
import EdaParts.Error
import EdaParts.Json.Layout
import EdaParts.Text.Blank

/-!
# Options

The options of one conversion. Each has a default, so that a document of options may leave out any
of them.

* `Schema` : the two families of library formats;
* `Options` : the options, with `Options.validate` and `Options.read`.
-/

namespace EdaParts

/-- A family of library formats. -/
inductive Schema where
  /-- Lines of words, in mils for symbols. -/
  | legacy
  /-- Nested expressions, in millimetres. -/
  | modern
  deriving Repr, DecidableEq

namespace Schema

def symbolExtension : Schema → String
  | legacy => "lib"
  | modern => "kicad_sym"

def footprintExtension : Schema → String
  | legacy => "mod"
  | modern => "kicad_mod"

def ofName? (name : String) : Option Schema :=
  match name with
  | "legacy" => some legacy
  | "modern" => some modern
  | _ => none

/-- Reads a schema, given by its name or by an object of that name and null. -/
def reader : Json.Reader Schema :=
  Json.choice ofName? "`legacy` or `modern`"

end Schema

/-- The options of one conversion. -/
structure Options where
  schema : Schema := .modern
  /-- Mils to a canvas unit of symbols. -/
  symbolScale : Float := 10
  libraryName : String := "lcsc"
  /-- Where footprints look for their models. -/
  modelDirectory : String := "$\x7bKIPRJMOD\x7d/lcsc.3dshapes"
  overwrite : Bool := false
  /-- Whether there is a symbol, a footprint, and a model in it. -/
  symbol : Bool := true
  footprint : Bool := true
  model : Bool := true

namespace Options

/-- Options that make sense have a finite positive scale and a library name that is not blank. -/
def validate (o : Options) : Except Error Unit :=
  if !(o.symbolScale.isFinite && o.symbolScale > 0) then
    .error (.invalidOption
      ("symbol_scale must be a positive number, got " ++ Decimal.plain o.symbolScale))
  else if Text.isBlankText o.libraryName then .error (.invalidOption "library_name is empty")
  else .ok ()

/-- Options as a record, any field of which may be left out. -/
def layout : Json.Layout Options :=
  ⟨"options",
    [.of "schema" .optional Schema.reader fun o schema => { o with schema },
      .of "symbol_scale" .optional Json.float fun o symbolScale => { o with symbolScale },
      .of "library_name" .optional Json.text fun o libraryName => { o with libraryName },
      .of "model_dir" .optional Json.text fun o modelDirectory => { o with modelDirectory },
      .of "overwrite" .optional Json.bool fun o overwrite => { o with overwrite },
      .of "symbol" .optional Json.bool fun o symbol => { o with symbol },
      .of "footprint" .optional Json.bool fun o footprint => { o with footprint },
      .of "model_3d" .optional Json.bool fun o model => { o with model }]⟩

def read (text : String) : Except Error Options :=
  match (layout.read {}).run text with
  | .ok options => do options.validate; return options
  | .error _ => .error .badDocument

/-- How a symbol refers to a footprint of the library. -/
def footprintReference (o : Options) (footprintName : String) : String :=
  o.libraryName ++ ":" ++ footprintName

end Options

end EdaParts
