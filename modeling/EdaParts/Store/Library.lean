import EdaParts.Component.Convert
import EdaParts.Store.EntryPattern
import EdaParts.Store.FileTree

/-!
# Libraries

Symbols are entries of one file, and footprints are files of one directory next to that of their
models. Both kinds of library tell whether they have an entry of a name, and store an entry under a
name, replacing the one that is there only if that is allowed.

* `Storing` : operations on a tree of files;
* `SymbolLibrary`, `FootprintLibrary` : the two kinds;
* `SymbolLibrary.insert` : what storing an entry does to the text of a library.
-/

namespace EdaParts

/-- An operation on a tree of files. What it did to the tree before it failed stays done. -/
abbrev Storing := ExceptT Error (StateT FileTree Logged)

namespace Storing

/-- An operation that does not look at the tree. -/
def ofOutcome {α : Type} (o : Outcome α) : Storing α :=
  ExceptT.mk fun tree => do return (← o.run, tree)

/-- Gives one notice in an operation. -/
def note (level : Level) (text : String) : Storing Unit :=
  ofOutcome (Outcome.note level text)

def createDirectories (path : String) : Storing Unit := do
  let (tree, made) := (← getThe FileTree).createDirectories path
  set tree
  if !made then throw .io

def writeFile (path text : String) : Storing Unit := do
  match (← getThe FileTree).write? path text with
  | some tree => set tree
  | none => throw .io

end Storing

/-- A library in a directory, by the path of that directory. -/
structure LibraryLocation where
  directory : String
  library : String
  schema : Schema

/-- A library of symbols: one file. -/
structure SymbolLibrary extends LibraryLocation

namespace SymbolLibrary

def path (l : SymbolLibrary) : String :=
  FileTree.joinPath l.directory (l.library ++ "." ++ l.schema.symbolExtension)

/-- What stands before and after the entries of a library. -/
def header (l : SymbolLibrary) : String :=
  match l.schema with
  | .legacy => Legacy.libraryHeader
  | .modern => Modern.libraryHeader

@[inherit_doc header]
def footer (l : SymbolLibrary) : String :=
  match l.schema with
  | .legacy => Legacy.libraryFooter
  | .modern => Modern.libraryFooter

/-- A text of the library, where one of blanks only is a library without entries. -/
def contents (l : SymbolLibrary) (text : String) : String :=
  if Text.isBlankText text then l.header ++ l.footer else text

/-- The text of the library with an entry stored, and whether one of its name was replaced. A new
entry stands before the last footer. -/
def insert (l : SymbolLibrary) (name entry text : String) (overwrite : Bool) :
    Except Error (String × Bool) :=
  let text := l.contents text
  match (EntryPattern.ofName l.schema name).split? text with
  | some (before, _, after) =>
    if overwrite then .ok (before ++ entry ++ after, true)
    else .error (.alreadyExists (s!"symbol '{name}' in " ++ l.path))
  | none =>
    match Text.cutLast l.footer.toList text.toList with
    | some (before, after) => .ok (String.ofList before ++ entry ++ String.ofList after, false)
    | none => .error (.noFooter l.path)

/-- The text of the file, empty if there is none. -/
def read (l : SymbolLibrary) : Storing String := do
  return ((← (← getThe FileTree).read l.path).getD "")

/-- Whether the library has an entry of a name. -/
def contains (l : SymbolLibrary) (name : String) : Storing Bool := do
  return ((EntryPattern.ofName l.schema name).split? (← l.read)).isSome

def write (l : SymbolLibrary) (name entry : String) (overwrite : Bool) : Storing Unit := do
  let (text, replaced) ← l.insert name entry (← l.read) overwrite
  Storing.note .info
    ((if replaced then s!"Updating symbol '{name}' in " else s!"Adding symbol '{name}' to ")
      ++ l.path)
  Storing.createDirectories (FileTree.parent l.path)
  Storing.writeFile l.path text

end SymbolLibrary

/-- A library of footprints: a directory of files, and one of models. -/
structure FootprintLibrary extends LibraryLocation

namespace FootprintLibrary

/-- The path of the directory of footprints. -/
def folder (l : FootprintLibrary) : String :=
  FileTree.joinPath l.directory (l.library ++ ".pretty")

/-- The path of the directory of models. -/
def modelFolder (l : FootprintLibrary) : String :=
  FileTree.joinPath l.directory (l.library ++ ".3dshapes")

def path (l : FootprintLibrary) (name : String) : String :=
  FileTree.joinPath l.folder (name ++ "." ++ l.schema.footprintExtension)

/-- Makes both directories. -/
def setUp (l : FootprintLibrary) : Storing Unit := do
  Storing.createDirectories l.folder
  Storing.createDirectories l.modelFolder

def contains (l : FootprintLibrary) (name : String) : Storing Bool := do
  return (← getThe FileTree).exists? (l.path name)

def write (l : FootprintLibrary) (name content : String) (overwrite : Bool) : Storing Unit := do
  if (← l.contains name) && !overwrite then
    throw (.alreadyExists ("footprint '" ++ l.path name ++ "'"))
  l.setUp
  Storing.writeFile (l.path name) content
  Storing.note .info ("Wrote footprint " ++ l.path name)

end FootprintLibrary

end EdaParts
