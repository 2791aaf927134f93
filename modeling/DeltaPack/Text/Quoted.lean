import DeltaPack.Text.Printing

/-!
# Quoted text

A diagnostic shows a piece of text between double quotes. Inside, the quote, the backslash
and the line controls have short escapes, and every other character that does not print is
written by its code point in hexadecimal, as in `\u{7f}`. Everything else stands for itself.
-/

namespace DeltaPack.Text

/-- How one character is written inside the quotes. -/
def escape (c : Char) : List Char :=
  if c = '"' then ['\\', '"']
  else if c = '\\' then ['\\', '\\']
  else if c = '\n' then ['\\', 'n']
  else if c = '\r' then ['\\', 'r']
  else if c = '\t' then ['\\', 't']
  else if c.toNat = 0 then ['\\', '0']
  else if prints c then [c]
  else ['\\', 'u', '\x7b'] ++ Nat.toDigits 16 c.toNat ++ ['\x7d']

/-- The text between double quotes, with escapes. -/
def quoted (text : String) : String :=
  String.ofList ('"' :: text.toList.flatMap escape ++ ['"'])

end DeltaPack.Text
