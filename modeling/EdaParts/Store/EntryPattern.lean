import EdaParts.Legacy.Symbol
import EdaParts.Modern.Symbol
import EdaParts.Options

/-!
# Entries within a library

An entry of a symbol library is found by the lines that begin and end it: it goes from the first
line that opens an entry of its name to the next line that begins like the end of one.

* `EntryPattern` : the openings, the best first, and the ending of an entry;
* `EntryPattern.split?` : a library before, within and after the first entry.
-/

namespace EdaParts

/-- How an entry begins, in one of several ways, and how its last line does. -/
structure EntryPattern where
  openings : List (List Char)
  ending : List Char

namespace EntryPattern

/-- The entries of a name. Legacy entries may have a banner of comments before them, which belongs
to them. -/
def ofName (schema : Schema) (name : String) : EntryPattern :=
  match schema with
  | .legacy =>
    let opening := "DEF " ++ name ++ " "
    { openings := [("#\n# " ++ name ++ "\n#\n" ++ opening).toList, opening.toList]
      ending := "ENDDEF".toList }
  | .modern =>
    { openings := [("(symbol " ++ Modern.quote name ++ " ").toList]
      ending := [')'] }

/-- The end of a line that may stand at the front, and what follows it. -/
def spanNewline : List Char → List Char × List Char
  | '\n' :: cs => (['\n'], cs)
  | cs => ([], cs)

/-- The text up to the first line that begins with `ending`, that beginning and the end of its line
included if nothing stands between them, and what follows it. -/
def throughEnding (ending : List Char) : (lineStart : Bool) → List Char →
    Option (List Char × List Char)
  | lineStart, cs =>
    if lineStart && ending.isPrefixOf cs then
      let (newline, after) := spanNewline (cs.drop ending.length)
      some (ending ++ newline, after)
    else
      match cs with
      | [] => none
      | c :: cs =>
        (throughEnding ending (c = '\n') cs).map fun (entry, after) => (c :: entry, after)

/-- The entry at the front with the given opening, and what follows it. -/
def openedBy? (p : EntryPattern) (cs opening : List Char) : Option (List Char × List Char) :=
  if opening.isPrefixOf cs then
    (throughEnding p.ending false (cs.drop opening.length)).map fun (entry, after) =>
      (opening ++ entry, after)
  else none

/-- The entry at the front, and what follows it. -/
def here? (p : EntryPattern) (cs : List Char) : Option (List Char × List Char) :=
  p.openings.findSome? (p.openedBy? cs)

/-- The text before the first entry, the entry, and what follows it. -/
def splitFrom? (p : EntryPattern) : (lineStart : Bool) → List Char →
    Option (List Char × List Char × List Char)
  | lineStart, cs =>
    match if lineStart then p.here? cs else none with
    | some (entry, after) => some ([], entry, after)
    | none =>
      match cs with
      | [] => none
      | c :: cs =>
        (p.splitFrom? (c = '\n') cs).map fun (before, entry, after) => (c :: before, entry, after)

/-- A library before, within and after the first entry. -/
def split? (p : EntryPattern) (library : String) : Option (String × String × String) :=
  (p.splitFrom? true library.toList).map fun (before, entry, after) =>
    (String.ofList before, String.ofList entry, String.ofList after)

end EntryPattern

end EdaParts
