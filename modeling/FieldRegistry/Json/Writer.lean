import FieldRegistry.Json.Basic
import FieldRegistry.Text.Shortest
import FieldRegistry.Text.Quoted

/-!
Compact JSON text: no blanks, members in their order, only quotes, backslashes and control
characters escaped.
-/

namespace FieldRegistry.Json

/-- A code point as four digits of base sixteen. -/
def fourHex (n : Nat) : String :=
  let digits := Text.hexDigits n
  Text.repeated (4 - digits.length) '0' ++ digits

def escapedChar (c : Char) : String :=
  if c == '"' then "\\\""
  else if c == '\\' then "\\\\"
  else if c == '\n' then "\\n"
  else if c == '\r' then "\\r"
  else if c == '\t' then "\\t"
  else if c.toNat == 8 then "\\b"
  else if c.toNat == 12 then "\\f"
  else if c.toNat < 0x20 then "\\u" ++ fourHex c.toNat
  else String.ofList [c]

/-- A string as JSON text. -/
def stringText (s : String) : String :=
  "\"" ++ String.join (s.toList.map escapedChar) ++ "\""

def Number.text : Number → String
  | .natural n => Text.decimal n
  | .negative n => "-" ++ Text.decimal n
  | .float x => Text.floatText x

mutual

/-- The compact text of a value. -/
def text : Json → String
  | .null => "null"
  | .bool true => "true"
  | .bool false => "false"
  | .number n => n.text
  | .string s => stringText s
  | .array items => "[" ++ Text.join "," (itemTexts items) ++ "]"
  | .object members => "\x7b" ++ Text.join "," (memberTexts members) ++ "\x7d"
termination_by structural value => value

def itemTexts : List Json → List String
  | [] => []
  | value :: rest => value.text :: itemTexts rest
termination_by structural items => items

def memberTexts : List (String × Json) → List String
  | [] => []
  | (name, value) :: rest => (stringText name ++ ":" ++ value.text) :: memberTexts rest
termination_by structural members => members

end

end FieldRegistry.Json
