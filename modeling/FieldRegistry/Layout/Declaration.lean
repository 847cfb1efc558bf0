import FieldRegistry.Layout.Page

/-!
Declarations in aligned columns. A declaration is described without any padding; the block it stands
in chooses the columns, so that the `::` of all its lines stand under each other.
-/

namespace FieldRegistry.Layout

inductive Initializer where
  /-- `= value` -/
  | value (text : String)
  /-- `=> target` -/
  | pointer (text : String)
deriving DecidableEq

structure Declaration where
  typeSpec : String
  access : String := "private"
  storage : Option String := none
  isProtected : Bool := false
  name : String
  /-- The declared shape in parentheses, empty for scalars. -/
  shape : String := ""
  initializer : Option Initializer := none
  comment : Option String := none
deriving DecidableEq

structure DeclarationBlock where
  /-- The access that is not written. -/
  defaultAccess : String
  /-- Whether a column for `protected` may appear. -/
  allowProtected : Bool
  declarations : List Declaration

/-- The widths of the columns; a column of width zero is left out. -/
structure Columns where
  typeSpec : Nat
  access : Nat
  storage : Nat
  isProtected : Bool

namespace DeclarationBlock

/-- The access of a declaration where it has to be written. -/
def shownAccess (block : DeclarationBlock) (d : Declaration) : Option String :=
  if d.access == block.defaultAccess then none else some d.access

def columns (block : DeclarationBlock) : Columns :=
  { typeSpec := columnWidth (block.declarations.map (·.typeSpec))
    access := columnWidth (block.declarations.filterMap block.shownAccess)
    storage := columnWidth (block.declarations.filterMap (·.storage))
    isProtected := block.allowProtected && block.declarations.any (·.isProtected) }

/-- An attribute after its comma, filled up to the width of its column. -/
def attributeCell (value : Option String) (width : Nat) : String :=
  padRight (value.elim "" fun v => ", " ++ v) (width + 2)

/-- An attribute in its column, nothing where the column is left out. -/
def columnCell (value : Option String) (width : Nat) : String :=
  if width == 0 then "" else attributeCell value width

/-- What stands before the `::`. -/
def lead (block : DeclarationBlock) (columns : Columns) (d : Declaration) : String :=
  padRight d.typeSpec columns.typeSpec ++ columnCell (block.shownAccess d) columns.access ++
    columnCell d.storage columns.storage ++
    (if columns.isProtected then
      attributeCell (if d.isProtected then some "protected" else none) "protected".length
    else "")

/-- What stands after the `::`. -/
def entity (d : Declaration) : String :=
  d.name ++ d.shape ++
    match d.initializer with
    | some (.value text) => " = " ++ text
    | some (.pointer text) => " => " ++ text
    | none => ""

def declarationLine (block : DeclarationBlock) (columns : Columns) (d : Declaration) : String :=
  block.lead columns d ++ " :: " ++ entity d

/-- The lines of the declarations, without comments. -/
def declarationLines (block : DeclarationBlock) : List String :=
  block.declarations.map (block.declarationLine block.columns)

/-- Every declaration at nesting level `depth`, after its comment. -/
def lines (block : DeclarationBlock) (depth : Nat) : List Line :=
  block.declarations.flatMap fun d =>
    (d.comment.elim [] fun comment => [⟨depth, "! " ++ comment⟩]) ++
      [⟨depth, block.declarationLine block.columns d⟩]

end DeclarationBlock

end FieldRegistry.Layout
