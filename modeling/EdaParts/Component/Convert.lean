import EdaParts.Footprint.Drawing
import EdaParts.Options
import EdaParts.Symbol.Drawing

/-!
# From components to symbols and footprints

A component gives a symbol if it has records of one and a name, and a footprint if it has records
of one and a name for that. Records that cannot be drawn never stand in the way.
-/

namespace EdaParts

/-- The outcome of an operation: a result or an error, with the notices given on the way. -/
abbrev Outcome := ExceptT Error Logged

/-- Gives one notice in an operation. -/
def Outcome.note (level : Level) (text : String) : Outcome Unit :=
  ExceptT.lift (Logged.note level text)

namespace Component

def toSymbol (c : Component) (o : Options) : Outcome Symbol := do
  o.validate
  let some source := c.symbol | throw (.missingData "component has no symbol data")
  if Text.isBlankText c.info.name then throw (.missingData "symbol name")
  Outcome.note .info "Schematic: creating schematic..."
  let frame := Frame.schematic source.center o.symbolScale
  let sheet ← ExceptT.lift (Sheet.ofLines frame source.shapes)
  Outcome.note .info "Schematic: Schematic Generated."
  return sheet.finish o.symbolScale c.info source.size (o.footprintReference c.info.footprintName)

/-- The footprint of a component, with its model if a resolver is given and has it. -/
def toFootprint (c : Component) (resolver : Option Resolver) : Outcome Footprint := do
  let some source := c.footprint | throw (.missingData "component has no footprint data")
  if Text.isBlankText c.info.footprintName then throw (.missingData "footprint name")
  Outcome.note .info "Footprint: creating footprint ..."
  let board ← ExceptT.lift (Board.ofLines ⟨.board source.origin, resolver⟩ source.shapes)
  Outcome.note .info "Footprint: Footprint Generated."
  return board.finish c.info.footprintName

end Component

end EdaParts
