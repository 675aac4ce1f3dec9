import EdaParts.Text.Printable

/-!
# Texts as literals

A message that quotes a text writes it as a literal: between quotes, with a backslash before quotes
and backslashes, short escapes for the common control characters, and the code point in braces for
any other character that is not printable.
-/

namespace EdaParts.Text

/-- The code point in lower-case hexadecimal digits, between braces. -/
def codePointEscape (c : Char) : List Char :=
  ['\\', 'u', '\x7b'] ++ Nat.toDigits 16 c.toNat ++ ['\x7d']

def literalChar (c : Char) : List Char :=
  match c with
  | '"' => ['\\', '"']
  | '\\' => ['\\', '\\']
  | '\n' => ['\\', 'n']
  | '\r' => ['\\', 'r']
  | '\t' => ['\\', 't']
  | c =>
    if c.toNat = 0 then ['\\', '0'] else if isPrintable c then [c] else codePointEscape c

def literal (s : String) : String :=
  String.ofList ('"' :: s.toList.flatMap literalChar ++ ['"'])

end EdaParts.Text
