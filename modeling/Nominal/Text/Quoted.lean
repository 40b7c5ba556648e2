import Nominal.Text.Unprintable

/-!
# Quoted text

Text in double quotes, as messages show it: whatever could be taken for the end of the text, or
would not show, is escaped.
-/

namespace Nominal

/-- A character by its number in hexadecimal, between braces. -/
def codePointEscape (c : Char) : List Char :=
  '\\' :: 'u' :: '\x7b' :: Nat.toDigits 16 c.toNat ++ ['\x7d']

/-- A character as it stands in quoted text. -/
def quoteChar (c : Char) : List Char :=
  match c with
  | '"' => ['\\', '"']
  | '\\' => ['\\', '\\']
  | '\n' => ['\\', 'n']
  | '\r' => ['\\', 'r']
  | '\t' => ['\\', 't']
  | '\x00' => ['\\', '0']
  | c =>
    if c < ' ' then codePointEscape c
    else if Unprintable.contains c then codePointEscape c
    else [c]

/-- A text in quotes. -/
def quoted (text : String) : String :=
  String.ofList ('"' :: text.toList.flatMap quoteChar ++ ['"'])

end Nominal
