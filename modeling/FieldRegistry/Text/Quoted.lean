import FieldRegistry.Text.Case
import FieldRegistry.Text.HiddenTable

/-!
Texts in double quotes, with escapes for the quote, the backslash and what does not show.
-/

namespace FieldRegistry.Text

/-- A character without a glyph of its own. -/
def isHidden (c : Char) : Bool :=
  c.toNat < 0x20 || inRanges hiddenRanges c

/-- Digits of a number in base sixteen, small letters. -/
def hexDigits (n : Nat) : String := String.ofList (Nat.toDigits 16 n)

def quotedChar (c : Char) : String :=
  if c == '"' then "\\\""
  else if c == '\\' then "\\\\"
  else if c == '\n' then "\\n"
  else if c == '\r' then "\\r"
  else if c == '\t' then "\\t"
  else if c.toNat == 0 then "\\0"
  else if isHidden c then "\\u\x7b" ++ hexDigits c.toNat ++ "\x7d"
  else String.ofList [c]

/-- The text in quotes, hidden characters as numbers in braces. -/
def quoted (s : String) : String :=
  "\"" ++ String.join (s.toList.map quotedChar) ++ "\""

end FieldRegistry.Text
