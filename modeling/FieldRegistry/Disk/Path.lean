import FieldRegistry.Text.Pieces

/-!
Paths as text: the pieces between slashes, the directories above a path, and a name below one.
-/

namespace FieldRegistry.Path

/-- A path cut at its slashes, after the slash that makes it absolute. -/
structure Parts where
  isAbsolute : Bool
  /-- The last piece comes first. -/
  reversed : List String

def Parts.ofText (text : String) : Parts :=
  match text.toList with
  | '/' :: rest => ⟨true, (Text.splitAll '/' (String.ofList rest)).reverse⟩
  | _ => ⟨false, (Text.splitAll '/' text).reverse⟩

def Parts.text (parts : Parts) : String :=
  (if parts.isAbsolute then "/" else "") ++ Text.join "/" parts.reversed.reverse

/-- Whether a piece names nothing: it is empty, or a dot that does not open a relative path. -/
def isVoid (isAbsolute : Bool) (piece : String) (before : List String) : Bool :=
  piece.isEmpty || (piece == "." && (isAbsolute || !before.isEmpty))

/-- Leaves out the pieces at the end that name nothing. -/
def dropVoid (isAbsolute : Bool) : List String → List String
  | [] => []
  | piece :: before =>
    if isVoid isAbsolute piece before then dropVoid isAbsolute before else piece :: before

/-- The paths above reversed pieces, the nearest first. -/
def above (isAbsolute : Bool) : List String → List Parts
  | [] => []
  | piece :: before =>
    if isVoid isAbsolute piece before then above isAbsolute before
    else ⟨isAbsolute, dropVoid isAbsolute before⟩ :: above isAbsolute before

/-- The directories above a path, the nearest first. -/
def ancestors (path : String) : List String :=
  let parts := Parts.ofText path
  (above parts.isAbsolute parts.reversed).map Parts.text

/-- The directory that holds a path. -/
def parent? (path : String) : Option String := (ancestors path).head?

/-- The path of a name below a directory. An absolute name stands for itself. -/
def below (directory name : String) : String :=
  if name.toList.head? = some '/' ∨ directory.isEmpty then name
  else if directory.toList.getLast? = some '/' then directory ++ name
  else directory ++ "/" ++ name

end FieldRegistry.Path
