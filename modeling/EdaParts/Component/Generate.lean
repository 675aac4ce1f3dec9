import EdaParts.Component.Convert
import EdaParts.Legacy.Footprint
import EdaParts.Legacy.Symbol
import EdaParts.Modern.Footprint
import EdaParts.Modern.Symbol

/-!
# Library texts of components

Symbols and footprints are written in either schema, and components through the one that their
options ask for.
-/

namespace EdaParts

/-- The entry of a symbol in a library. -/
def Symbol.render (s : Symbol) : Schema → String
  | .legacy => Legacy.symbolEntry s
  | .modern => Modern.symbolEntry s

def Footprint.render (f : Footprint) : Schema → String
  | .legacy => Legacy.footprintFile f
  | .modern => Modern.footprintFile f

namespace Component

/-- The entry of a component's symbol. -/
def generateSymbol (c : Component) (o : Options) : Outcome String := do
  return (← c.toSymbol o).render o.schema

/-- The file of a component's footprint. -/
def generateFootprint (c : Component) (o : Options) (resolver : Option Resolver) :
    Outcome String := do
  o.validate
  return (← c.toFootprint resolver).render o.schema

end Component

end EdaParts
