/-!
# Blanks

`isBlank` is the white space property of Unicode: twenty-five code points, the five ASCII control
characters from tab to carriage return among them. Vendor fields are trimmed, told empty and cut
into words by it.

* `trimStart`, `trimEnd`, `trim` : a text without the blanks at its ends;
* `words` : the maximal runs of characters that are not blank, in order.
-/

namespace EdaParts.Text

/-- White space in the sense of Unicode. -/
def isBlank (c : Char) : Bool :=
  let n := c.toNat
  (9 ≤ n && n ≤ 13) || n == 0x20 || n == 0x85 || n == 0xA0 || n == 0x1680 ||
    (0x2000 ≤ n && n ≤ 0x200A) || n == 0x2028 || n == 0x2029 || n == 0x202F || n == 0x205F ||
    n == 0x3000

/-- The characters from the first one that is not blank. -/
def trimStart (cs : List Char) : List Char :=
  cs.dropWhile isBlank

/-- The characters up to the last one that is not blank. -/
def trimEnd (cs : List Char) : List Char :=
  (cs.reverse.dropWhile isBlank).reverse

/-- The characters without the blanks at either end. -/
def trim (cs : List Char) : List Char :=
  trimEnd (trimStart cs)

/-- The maximal runs of characters that are not blank, the first of them continuing `run`, whose
characters are held last first. -/
def wordsFrom (run : List Char) : List Char → List (List Char)
  | [] => if run.isEmpty then [] else [run.reverse]
  | c :: cs =>
    if isBlank c then
      if run.isEmpty then wordsFrom [] cs else run.reverse :: wordsFrom [] cs
    else wordsFrom (c :: run) cs

/-- The maximal runs of characters that are not blank. -/
def words (cs : List Char) : List (List Char) :=
  wordsFrom [] cs

/-- The text without the blanks at either end. -/
def trimmed (s : String) : String :=
  String.ofList (trim s.toList)

/-- A text of blanks only, the empty one among them. -/
def isBlankText (s : String) : Bool :=
  s.toList.all isBlank

end EdaParts.Text
