import FieldRegistry.Allocation
import FieldRegistry.Layout.Declaration
import FieldRegistry.Layout.Style
import FieldRegistry.NameTable

/-!
The Fortran module of a file.
-/

namespace FieldRegistry.SourceModule

open Layout (Declaration DeclarationBlock Import Initializer Line)

/-- The access that generated modules have by default. -/
def moduleAccess : Access := .inModule

/-- A standard name as a phrase: a capital at its start and spaces for underscores. -/
def phrase (standardName : String) : String :=
  match standardName.toList with
  | [] => ""
  | c :: cs =>
    String.ofList ((Text.upperChar c ++ cs).map fun d => if d == '_' then ' ' else d)

def tableHeader (name : String) : List Line :=
  [⟨0, "!> \\section arg_table_" ++ name ++ "  Argument Table"⟩,
   ⟨0, "!! \\htmlinclude " ++ name ++ ".html"⟩]

/-- The initial value in a declaration; allocatable variables have none. -/
def initializerOf (v : Variable) : Option Initializer :=
  v.initialValue.bind fun value =>
    match v.storage with
    | .pointer => some (.pointer value)
    | .allocatable => none
    | .plain | .target | .parameter => some (.value value)

/-- What is said about a variable above its declaration. -/
def commentOf (v : Variable) : String :=
  v.localName ++ ": " ++ v.longName.getD (phrase v.standardName)

def declarationOf (v : Variable) : Declaration :=
  { typeSpec := v.typeSpec
    name := v.localName
    access := v.access.text
    storage := v.storage.keyword?
    isProtected := v.isProtected
    shape := v.declaredShape
    initializer := initializerOf v
    comment := some (commentOf v) }

/-- The attributes in the first line of a type definition. -/
def typeAttributes (a : Aggregate) : String :=
  match a.parent with
  | some parent => ", extends(" ++ parent ++ ")"
  | none =>
    if a.isBindC then ", bind(C)"
    else if a.access == moduleAccess then "" else ", " ++ a.access.text

/-- The declarations of the members of a type. -/
def memberBlock (a : Aggregate) : DeclarationBlock :=
  ⟨a.access.text, false, a.members.map declarationOf⟩

def typeDefinition (style : Style) (a : Aggregate) : Except Fault (List Line) := do
  a.checkMembers
  return tableHeader a.name ++ [⟨1, "type" ++ typeAttributes a ++ " :: " ++ a.name⟩] ++
    (memberBlock a).lines 2 ++ [⟨1, "end type " ++ a.name⟩] ++
    (if style.separateBlocks then [.blank] else [])

/-- The rows of an array constructor, each continued on the next. -/
def continued (last : String) : List String → List Line
  | [] => []
  | [row] => [⟨2, row ++ last⟩]
  | row :: next :: rest => ⟨2, row ++ ", &"⟩ :: continued last (next :: rest)

def nameTableLines (table : NameTable) : List Line :=
  let standardLength := Text.decimal table.standardNameLength
  let aliasLength := Text.decimal table.aliasLength
  let aliases := Text.decimal table.maxAliases
  [⟨1, "! Number of variables which can be read from the initial conditions (IC) file:"⟩,
   ⟨1, "integer, public, parameter :: ic_var_num = " ++ Text.decimal table.entries.length⟩,
   .blank,
   ⟨1, "! Max length of registered variable standard names:"⟩,
   ⟨1, "integer, public, parameter :: std_name_len = " ++ standardLength⟩,
   .blank,
   ⟨1, "! Max length of IC file variable names:"⟩,
   ⟨1, "integer, public, parameter :: ic_name_len = " ++ aliasLength⟩,
   .blank,
   ⟨1, "character(len=" ++ standardLength ++
      "), public :: input_var_stdnames(ic_var_num) = (/ &"⟩] ++
  continued " /)" table.standardNameCells ++
  [.blank,
   ⟨1, "character(len=" ++ aliasLength ++ "), public :: input_var_names(" ++ aliases ++
      ", ic_var_num) = reshape((/ &"⟩] ++
  continued (" /), (/" ++ aliases ++ ", ic_var_num/))") table.aliasRows ++ [.blank]

/-! ## The allocation routine -/

def stepLines : AllocationStep → List Line
  | .allocate target check nullify extents =>
    [⟨2, "if (" ++ check ++ "(" ++ target ++ ")) then"⟩,
     ⟨3, "if (" ++ AllocationRoutine.reallocFlag ++ ") then"⟩,
     ⟨4, "deallocate(" ++ target ++ ")"⟩] ++
    (if nullify then [⟨4, "nullify(" ++ target ++ ")"⟩] else []) ++
    [⟨3, "else"⟩,
     ⟨4, "call endrun(subname//\": " ++ target ++ " is already " ++ check ++
        ", cannot allocate\")"⟩,
     ⟨3, "end if"⟩,
     ⟨2, "end if"⟩,
     ⟨2, "allocate(" ++ target ++ extents ++ ")"⟩]
  | .assign target value =>
    [⟨2, "if (" ++ AllocationRoutine.initFlag ++ ") then"⟩,
     ⟨3, target ++ " = " ++ value⟩,
     ⟨2, "end if"⟩]

/-- Sets a flag from its optional argument. -/
def flagLines (flag fallback : String) : List Line :=
  [⟨2, "if (present(" ++ flag ++ "_in)) then"⟩,
   ⟨3, flag ++ " = " ++ flag ++ "_in"⟩,
   ⟨2, "else"⟩,
   ⟨3, flag ++ " = " ++ fallback⟩,
   ⟨2, "end if"⟩]

def routineLines (routine : AllocationRoutine) : List Line :=
  let initFlag := AllocationRoutine.initFlag
  let reallocFlag := AllocationRoutine.reallocFlag
  [⟨1, "subroutine " ++ routine.name ++ "(" ++ Text.join ", " routine.arguments ++ ")"⟩,
   ⟨2, "use shr_infnan_mod,   only: nan => shr_infnan_nan, assignment(=)"⟩,
   ⟨2, "use cam_abortutils,   only: endrun"⟩,
   ⟨2, "!! Dummy arguments"⟩] ++
  routine.dimensions.map (fun dimension =>
    ⟨2, "integer,           intent(in) :: " ++ dimension⟩) ++
  [⟨2, "logical, optional, intent(in) :: " ++ initFlag ++ "_in"⟩,
   ⟨2, "logical, optional, intent(in) :: " ++ reallocFlag ++ "_in"⟩,
   .blank,
   ⟨2, "!! Local variables"⟩,
   ⟨2, "logical                     :: " ++ initFlag⟩,
   ⟨2, "logical                     :: " ++ reallocFlag⟩,
   ⟨2, "character(len=*), parameter :: subname = \"" ++ routine.name ++ "\""⟩,
   .blank,
   ⟨2, "! Set optional argument values"⟩] ++
  flagLines initFlag ".true." ++ flagLines reallocFlag ".false." ++ [.blank] ++
  routine.steps.flatMap stepLines ++ [⟨1, "end subroutine " ++ routine.name⟩]

/-! ## The module -/

def arrangeImports (style : Style) (imports : List Import) : List Import :=
  if style.sortImports then Import.sorted imports else Import.distinct imports

/-- The declarations of the variables of a file. -/
def variableBlock (unit : FileUnit) : DeclarationBlock :=
  ⟨moduleAccess.text, true, unit.dictionary.declared.map declarationOf⟩

/-- The lines of a module whose allocation routine is given. -/
def lines (unit : FileUnit) (catalog : Catalog) (style : Style) (routine : AllocationRoutine) :
    Checked Fault (List Line) := do
  let imports ← Checked.ofExcept (unit.imports catalog)
  let aggregates ← Checked.ofExcept (unit.aggregates catalog)
  let definitions ← Checked.ofExcept (aggregates.mapM (typeDefinition style))
  let table ← NameTable.build unit catalog
  return [⟨0, "module " ++ unit.name⟩, .blank] ++
    Import.lines (arrangeImports style imports) 1 ++
    [.blank, ⟨0, "implicit none"⟩, ⟨0, "private"⟩, .blank] ++
    definitions.flatten ++ table.elim [] nameTableLines ++
    tableHeader unit.dictionary.name ++ (variableBlock unit).lines 1 ++
    [.blank, ⟨0, "!! public interfaces"⟩, ⟨1, "public :: " ++ routine.name⟩,
     .blank, ⟨0, "CONTAINS"⟩, .blank] ++
    routineLines routine ++ [.blank, ⟨0, "end module " ++ unit.name⟩]

/-- The source text of a file. -/
def text (unit : FileUnit) (catalog : Catalog) (style : Style) : Action Fault Ranking String := do
  let routine ← AllocationRoutine.build unit catalog
  let lines ← (lines unit catalog style routine : Checked Fault (List Line))
  return Layout.render lines style.indentSize

end FieldRegistry.SourceModule
