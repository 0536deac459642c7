import DsdlHeaders.Text.Case
import DsdlHeaders.Text.QuotedTable

/-!
# Quoted text

A text inside a printed list or map is shown between double quotes. Quotes and backslashes are
escaped, the four common control characters have their usual short forms, and a character without
a glyph of its own is shown by its code point in hexadecimal.
-/

namespace DsdlHeaders.Text

/-- Hexadecimal digits of a code point, without leading zeros. -/
def hexDigits (n : Nat) : List Char :=
  Nat.toDigits 16 n

/-- How one character is shown inside quotes. -/
def quoteChar (c : Char) : List Char :=
  if c = '"' then ['\\', '"']
  else if c = '\\' then ['\\', '\\']
  else if c = '\n' then ['\\', 'n']
  else if c = '\t' then ['\\', 't']
  else if c = '\r' then ['\\', 'r']
  else if c.toNat = 0 then ['\\', '0']
  else if c.toNat < 0x7f && 0x20 ≤ c.toNat then [c]
  else if inRanges c.toNat glyphless then
    ['\\', 'u', '\x7b'] ++ hexDigits c.toNat ++ ['\x7d']
  else [c]

/-- A text between double quotes. -/
def quoted (s : String) : String :=
  String.ofList ('"' :: s.toList.flatMap quoteChar ++ ['"'])

end DsdlHeaders.Text
