import EdaParts.Frame
import EdaParts.Text.Split

/-!
# Nested expressions

The modern formats are expressions in parentheses. A list stands on one line: a head, a blank, and
items between blanks. A block begins like a list and goes on with a body, each expression of it on
a line of its own, two blanks further in than the block; its closing parenthesis stands on a line
of its own as well.

* `Expr` : atoms, quoted texts, lists and blocks;
* `Expr.print` : the text of an expression at a depth;
* `quote` : a text between quotes, where a backslash stands before each quote and backslash.
-/

namespace EdaParts.Modern

/-- An expression with its layout. -/
inductive Expr where
  | atom (text : String)
  | quoted (text : String)
  | list (head : String) (items : List Expr)
  | block (head : String) (items body : List Expr)

/-- The characters of a quoted text, without the quotes. -/
def escape (s : List Char) : List Char :=
  s.flatMap fun c => if c = '\\' then ['\\', '\\'] else if c = '"' then ['\\', '"'] else [c]

def quote (s : String) : String :=
  String.ofList ('"' :: escape s.toList ++ ['"'])

/-- A new line at a depth. -/
def newline (depth : Nat) : String :=
  String.ofList ('\n' :: List.replicate (2 * depth) ' ')

namespace Expr

mutual

/-- The text of an expression whose first line stands at a depth. -/
def print (depth : Nat) : Expr → String
  | atom text => text
  | quoted text => Modern.quote text
  | list head items => "(" ++ head ++ " " ++ printItems depth items ++ ")"
  | block head items body =>
    "(" ++ head ++ printInline depth items ++ printBody (depth + 1) body ++ newline depth ++ ")"

/-- Items between blanks. -/
def printItems (depth : Nat) : List Expr → String
  | [] => ""
  | e :: es => e.print depth ++ printInline depth es

/-- Items with a blank before each. -/
def printInline (depth : Nat) : List Expr → String
  | [] => ""
  | e :: es => " " ++ e.print depth ++ printInline depth es

/-- Expressions on lines of their own. -/
def printBody (depth : Nat) : List Expr → String
  | [] => ""
  | e :: es => newline depth ++ e.print depth ++ printBody depth es

end

def number (x : Float) : Expr :=
  atom (numberText x)

def natural (n : Nat) : Expr :=
  atom (toString n)

end Expr

/-- The version of the formats. -/
def version : Expr := .list "version" [.natural 20211014]

/-- What the files are written by. -/
def generator : Expr := .list "generator" [.atom "easyeda_kiconv"]

end EdaParts.Modern
