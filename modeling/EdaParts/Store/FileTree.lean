import EdaParts.Error
import EdaParts.Text.Split

/-!
# Trees of files

The directory that libraries are written into is a value: the files and directories in it, by their
places. A place is the list of names that leads there. Paths are texts with slashes between names,
the first of them that of the directory itself; blank names and single dots lead nowhere, two dots
lead back up. Above the directory nothing is known but that there are more of them, and a path that
does not begin with it leads nowhere.

* `FileTree`, `get?`, `put` : the tree, what stands at a place, and a tree with something put there;
* `place?` : where a path leads through directories that are there;
* `exists?`, `read`, `createDirectories`, `write?` : what a store does, or the refusal to do it;
* `joinPath`, `parent` : paths from paths.
-/

namespace EdaParts

/-- What a file holds: a text, or bytes that are none. -/
inductive Content where
  | text (s : String)
  | binary (bytes : List UInt8)
  deriving Repr, DecidableEq

/-- What may stand at a place. -/
inductive Entry where
  | directory
  | file (content : Content)
  deriving Repr, DecidableEq

/-- The names that lead to a place: pairs of dots as far as the way goes up from the directory of the
tree, then names of directories, and the name of what stands there. -/
abbrev Place := List String

namespace Place

/-- The directory of the tree, or one above it. -/
def isAbove (p : Place) : Bool := p.all (· = "..")

def up (p : Place) : Place :=
  if p.isAbove then p ++ [".."] else p.dropLast

end Place

/-- The files and directories in one directory, each place once, and the path of that directory. -/
structure FileTree where
  directory : String
  entries : List (Place × Entry)
  deriving Repr, DecidableEq

namespace FileTree

def empty (directory : String) : FileTree := ⟨directory, []⟩

def get? (t : FileTree) (p : Place) : Option Entry :=
  if p.isAbove then some .directory else t.entries.lookup p

def put (t : FileTree) (p : Place) (e : Entry) : FileTree :=
  { t with entries := (p, e) :: t.entries.filter (·.1 ≠ p) }

/-! ## Paths -/

/-- A name that a file can have. -/
def isName (name : String) : Bool := name.utf8ByteSize ≤ 255

/-- A path that can lead somewhere: of at most 4095 bytes, none of them zero. -/
def isPath (path : String) : Bool :=
  path.utf8ByteSize ≤ 4095 && !path.toList.contains (Char.ofNat 0)

/-- The parts of a path between slashes. -/
def parts (path : String) : List String :=
  (Text.pieces '/' path.toList).map String.ofList

/-- A part that leads nowhere. -/
def isStill (part : String) : Bool := part = "" || part = "."

def ofParts (parts : List String) : String := "/".intercalate parts

/-- The names by which a path leads on from the directory of the tree. -/
def names? (t : FileTree) (path : String) : Option (List String) :=
  let here := parts t.directory
  if isPath path && here.isPrefixOf (parts path) then
    some (((parts path).drop here.length).filter (!isStill ·))
  else none

/-- A path that does not depend on where it is looked up. -/
def isAbsolute (path : String) : Bool :=
  path.toList.head? == some '/'

/-- A directory and a path in it; an absolute path stays what it is. -/
def joinPath (directory path : String) : String :=
  if isAbsolute path then path else directory ++ "/" ++ path

/-- The path without its last name, and without the parts that lead nowhere around it. -/
def parent (path : String) : String :=
  ofParts ((((parts path).reverse.dropWhile isStill).drop 1).dropWhile isStill).reverse

/-- The place that names lead to from another place, through directories that are there. Nothing
need stand at the last of them. -/
def walk? (t : FileTree) (here : Place) : List String → Option Place
  | [] => some here
  | n :: ns =>
    if n = ".." then walk? t here.up ns
    else if !isName n then none
    else if ns.isEmpty then some (here ++ [n])
    else if t.get? (here ++ [n]) = some .directory then walk? t (here ++ [n]) ns
    else none

def place? (t : FileTree) (path : String) : Option Place :=
  (t.names? path).bind (t.walk? [])

/-! ## Operations -/

/-- Something stands where a path leads. -/
def exists? (t : FileTree) (path : String) : Bool :=
  ((t.place? path).bind t.get?).isSome

/-- The text of the file where a path leads; none if nothing stands there. -/
def read (t : FileTree) (path : String) : Except Error (Option String) :=
  match (t.place? path).bind t.get? with
  | none => .ok none
  | some (.file (.text s)) => .ok (some s)
  | some _ => .error .io

/-- The tree with the directories that names lead through from a place, and whether all of them
could be made. Those made before the first that could not stay. -/
def makeDirectories (t : FileTree) (here : Place) : List String → FileTree × Bool
  | [] => (t, true)
  | n :: ns =>
    if n = ".." then makeDirectories t here.up ns
    else if !isName n then (t, false)
    else
      let p := here ++ [n]
      match t.get? p with
      | some .directory => makeDirectories t p ns
      | some (.file _) => (t, false)
      | none => makeDirectories (t.put p .directory) p ns

/-- The tree with all directories of a path, and whether they could be made. -/
def createDirectories (t : FileTree) (path : String) : FileTree × Bool :=
  match t.names? path with
  | some ns => t.makeDirectories [] ns
  | none => (t, false)

/-- The tree with a text in the file where a path leads; nothing is written over a directory. -/
def write? (t : FileTree) (path : String) (text : String) : Option FileTree := do
  let p ← t.place? path
  match t.get? p with
  | some .directory => none
  | _ => some (t.put p (.file (.text text)))

end FileTree

end EdaParts
