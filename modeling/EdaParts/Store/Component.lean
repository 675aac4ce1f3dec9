import EdaParts.Component.Generate
import EdaParts.Store.Library

/-!
# Storing components

The footprint and the symbol of a component are generated and stored in the libraries of their
options, the footprint first. `Report` says what became of each.
-/

namespace EdaParts

/-- What became of a symbol or a footprint. -/
inductive Status where
  /-- The options do not ask for it. -/
  | disabled
  /-- The component has none. -/
  | missing
  /-- One of its name is there, and may not be replaced. -/
  | kept (name : String)
  | written (name : String)
  deriving Repr, DecidableEq

/-- What became of both. -/
structure Report where
  symbol : Status
  footprint : Status
  deriving Repr, DecidableEq

/-- Runs a storing operation, and keeps what is there if it may not be replaced. -/
def Storing.keepExisting (name : String) (write : Storing Unit) : Storing Status :=
  tryCatch (do write; pure (.written name)) fun
    | .alreadyExists entry => do
      Storing.note .warn (entry ++ " already exists, keeping it")
      pure (.kept name)
    | e => throw e

namespace Component

def resolver? (c : Component) (o : Options) : Option Resolver :=
  if o.model then some (Resolver.inDirectory o.modelDirectory c.info.modelName) else none

def storeFootprint (c : Component) (directory : String) (o : Options) : Storing Status := do
  if !o.footprint then return .disabled
  if c.footprint.isNone then return .missing
  let text ← Storing.ofOutcome (c.generateFootprint o (c.resolver? o))
  let library : FootprintLibrary := ⟨directory, o.libraryName, o.schema⟩
  Storing.keepExisting c.info.footprintName (library.write c.info.footprintName text o.overwrite)

def storeSymbol (c : Component) (directory : String) (o : Options) : Storing Status := do
  if !o.symbol then return .disabled
  if c.symbol.isNone then return .missing
  let text ← Storing.ofOutcome (c.generateSymbol o)
  let library : SymbolLibrary := ⟨directory, o.libraryName, o.schema⟩
  Storing.keepExisting c.info.name (library.write c.info.name text o.overwrite)

/-- Generates and stores what the options ask for. -/
def store (c : Component) (directory : String) (o : Options) : Storing Report := do
  Storing.ofOutcome (liftM o.validate)
  let footprint ← c.storeFootprint directory o
  let symbol ← c.storeSymbol directory o
  return { symbol, footprint }

end Component

end EdaParts
