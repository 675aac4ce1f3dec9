import EdaParts.Binary64
import EdaParts.Frame
import EdaParts.Text.Split

/-!
# Lines of words

The legacy formats are lines of words with one blank between them. A word stands bare or between
quotes. Quotes have no escape, so that one inside a text becomes an apostrophe.

* `Word`, `Line` : a word and a line;
* `print` : the text of a list of lines.
-/

namespace EdaParts.Legacy

/-- A word of a line. -/
inductive Word where
  | bare (text : String)
  | quoted (text : String)
  deriving Repr, DecidableEq

namespace Word

/-- The text with apostrophes for its quotes. -/
def unquoted (s : String) : String :=
  Text.substitute '"' ['\''] s

def print : Word → String
  | bare text => text
  | quoted text => "\"" ++ unquoted text ++ "\""

def integer (n : Int) : Word := bare (toString n)

/-- A number with at most four places. -/
def number (x : Float) : Word := bare (numberText x)

/-- An angle in tenths of a degree, from degrees. -/
def tenths (degrees : Float) : Word :=
  integer (Binary64.truncated (Binary64.rounded (degrees * 10)))

/-- Free text as one word: its blanks become tildes, and so does the lack of any text. -/
def free (s : String) : Word :=
  bare (if s.isEmpty then "~" else Text.substitute ' ' ['~'] s)

end Word

abbrev Line := List Word

/-- A line of words without quotes. -/
def bareWords (words : List String) : Line := words.map Word.bare

/-- The text of a line, without its end. -/
def Line.print (l : Line) : String :=
  " ".intercalate (l.map Word.print)

def print (lines : List Line) : String :=
  String.join (lines.map fun l => l.print ++ "\n")

end EdaParts.Legacy
