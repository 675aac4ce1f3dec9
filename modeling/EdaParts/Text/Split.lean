/-!
# Cutting texts

Lists of characters are cut at a separator, or at the last place where a text occurs. `pieces` and
`join` undo each other on pieces that do not hold the separator.

* `pieces` : the parts between separators, empty ones included;
* `join` : parts put together around a separator;
* `cutLast` : what stands before the last occurrence of a text, and the rest from there on;
* `dropEndWhile` : a list without its last run of elements of a kind.
-/

namespace EdaParts.Text

/-- The parts of a list between the separators, empty parts included: `k` separators leave `k + 1`
parts. -/
def pieces (sep : Char) : List Char → List (List Char)
  | [] => [[]]
  | c :: cs =>
    if c = sep then [] :: pieces sep cs
    else
      match pieces sep cs with
      | [] => [[c]]
      | p :: ps => (c :: p) :: ps

/-- The parts in order, with the separator between neighbours. -/
def join (sep : Char) : List (List Char) → List Char
  | [] => []
  | [p] => p
  | p :: q :: ps => p ++ sep :: join sep (q :: ps)

/-- The characters before the last occurrence of `mark`, and those from there on. -/
def cutLast (mark : List Char) : List Char → Option (List Char × List Char)
  | [] => if mark.isEmpty then some ([], []) else none
  | c :: cs =>
    match cutLast mark cs with
    | some (before, found) => some (c :: before, found)
    | none => if mark.isPrefixOf (c :: cs) then some ([], c :: cs) else none

/-- The list without the run of elements satisfying `p` at its end. -/
def dropEndWhile (p : Char → Bool) (cs : List Char) : List Char :=
  (cs.reverse.dropWhile p).reverse

/-- The text with `new` in place of every character `old`. -/
def substitute (old : Char) (new : List Char) (s : String) : String :=
  String.ofList (s.toList.flatMap fun c => if c = old then new else [c])

end EdaParts.Text
