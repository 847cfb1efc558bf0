import FieldRegistry.Text.Blank
import FieldRegistry.Text.Case
import FieldRegistry.Text.Decimal

/-!
Dimension tokens. A token is one name or two names with a colon between them; a name is the standard
name of a variable or a constant dimension.
-/

namespace FieldRegistry.Dimension

/-- Names with a fixed extent. -/
def constants : List (String × Nat) := [("ccpp_constant_one", 1), ("ccpp_constant_zero", 0)]

/-- The extent of a constant dimension, in any letter case. -/
def constant? (name : String) : Option Nat := constants.lookup (Text.lower (Text.trim name))

/-- The tokens of a dimension text. -/
def tokens (text : String) : List String := Text.words text

/-- The names in a token. -/
def components (token : String) : List String := (Text.splitAll ':' token).map Text.trim

/-- A second colon would give a step. -/
def hasStep (token : String) : Bool := 1 < token.toList.count ':'

/-- The names in a token that are not constant, in lower case. -/
def named (token : String) : List String :=
  ((components token).filter fun name => (constant? name).isNone).map Text.lower

/-- A list of dimensions in parentheses. -/
def listText (dimensions : List String) : String := "(" ++ Text.join ", " dimensions ++ ")"

/-- A name as an extent: the value of a constant, or the name in lower case. -/
def componentExtent (name : String) : String :=
  match constant? name with
  | some n => Text.decimal n
  | none => Text.lower name

/-- A token as an extent of allocated storage. -/
def extent (token : String) : String := Text.join ":" ((components token).map componentExtent)

end FieldRegistry.Dimension
