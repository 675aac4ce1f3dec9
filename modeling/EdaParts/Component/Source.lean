import EdaParts.Geometry.Point

/-!
# Components

A component as its vendor describes it: the catalog's information, and the records of its symbol
and its footprint, either of which may be missing.
-/

namespace EdaParts

/-- The names of a component and what its catalog says about it. -/
structure ComponentInfo where
  catalogId : String := ""
  name : String := ""
  designator : String := "U"
  manufacturer : String := ""
  category : String := " - "
  description : String := ""
  datasheet : String := ""
  footprintName : String := ""
  modelName : Option String := none
  surfaceMounted : Bool := false

/-- The declared size of a symbol in canvas units. -/
structure Extent where
  width : Float := 0
  height : Float := 0

/-- The records of a symbol, and the point of the canvas that it is centered on. -/
structure SymbolSource where
  shapes : List String
  center : Point
  size : Extent

/-- The records of a footprint, and the point of the canvas that it counts from. -/
structure FootprintSource where
  shapes : List String
  origin : Point

/-- A component. -/
structure Component where
  info : ComponentInfo
  symbol : Option SymbolSource
  footprint : Option FootprintSource

end EdaParts
