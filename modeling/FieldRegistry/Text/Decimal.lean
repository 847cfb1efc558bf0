/-!
Decimal numerals: digits read as numbers, with an optional plus sign and an upper bound.
-/

namespace FieldRegistry.Text

def isDigit (c : Char) : Bool := '0' ≤ c && c ≤ '9'

def digitValue (c : Char) : Nat := c.toNat - '0'.toNat

/-- The number that a list of digits denotes, most significant first. -/
def digitsValue (ds : List Char) : Nat :=
  ds.foldl (fun n c => 10 * n + digitValue c) 0

/-- Drops one leading plus sign. -/
def dropPlus : List Char → List Char
  | '+' :: ds => ds
  | ds => ds

/-- Reads one or more digits, after at most one plus sign, as a number below `bound`. -/
def readBelow (bound : Nat) (s : String) : Option Nat :=
  let ds := dropPlus s.toList
  if ds.isEmpty || !ds.all isDigit then none
  else if digitsValue ds < bound then some (digitsValue ds) else none

/-- The decimal numeral of a number. -/
def decimal (n : Nat) : String := String.ofList (Nat.toDigits 10 n)

end FieldRegistry.Text
