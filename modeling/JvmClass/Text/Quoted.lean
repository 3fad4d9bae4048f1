/-
  JvmClass.Text.Quoted — text in double quotes.

  Quotes and backslashes follow a backslash, the line breaks, the tabulator and NUL have a letter
  each, and every other character that is not graphic is its code point in braces.
-/

import JvmClass.Text.Graphic

namespace JvmClass.Text

/-- The code point in lower-case hexadecimal, without leading zeros. -/
def hexDigits (n : Nat) : List Char := Nat.toDigits 16 n

def escapeChar (c : Char) : List Char :=
  if c = '\x00' then ['\\', '0']
  else if c = '\t' then ['\\', 't']
  else if c = '\r' then ['\\', 'r']
  else if c = '\n' then ['\\', 'n']
  else if c = '\\' then ['\\', '\\']
  else if c = '"' then ['\\', '"']
  else if isGraphic c then [c]
  else ['\\', 'u', '\x7b'] ++ hexDigits c.toNat ++ ['\x7d']

def quoted (s : String) : String :=
  String.ofList ('"' :: (s.toList.flatMap escapeChar ++ ['"']))

end JvmClass.Text
