import FieldRegistry.Dimension

/-!
Variables of a registry and the documented elements of arrays.
-/

namespace FieldRegistry

/-- How a variable is stored. -/
inductive Storage where
  | plain
  | target
  | parameter
  | allocatable
  | pointer
deriving DecidableEq

namespace Storage

def parse? (text : String) : Option Storage :=
  if text == "none" || text == "" then some plain
  else if text == "target" then some target
  else if text == "parameter" then some parameter
  else if text == "allocatable" then some allocatable
  else if text == "pointer" then some pointer
  else none

/-- The attribute in a declaration. -/
def keyword? : Storage → Option String
  | plain => none
  | target => some "target"
  | parameter => some "parameter"
  | allocatable => some "allocatable"
  | pointer => some "pointer"

/-- The shape is known where the variable is declared. -/
def hasFixedShape : Storage → Bool
  | plain | target | parameter => true
  | allocatable | pointer => false

/-- The inquiry that tells whether storage exists already. -/
def statusCheck? : Storage → Option String
  | pointer => some "associated"
  | allocatable => some "allocated"
  | plain | target | parameter => none

end Storage

inductive Access where
  | everywhere
  | inModule
deriving DecidableEq

def Access.text : Access → String
  | everywhere => "public"
  | inModule => "private"

/-- The type of a variable. Aggregates are referred to by name. -/
structure TypeRef where
  name : String
  /-- The scope that defines the type, none for intrinsic types. -/
  home : Option String
  isAggregate : Bool
deriving DecidableEq

/-- What variables and array elements have in common. -/
structure Quantity where
  localName : String
  standardName : String
  type : TypeRef
  kind : String
  units : String
  /-- Dimension tokens as written. -/
  dimensions : List String
  storage : Storage
  longName : Option String
  initialValue : Option String
  /-- Names in files with initial conditions. -/
  inputNames : Option (List String)
deriving DecidableEq

namespace Quantity

/-- The initial value of pointers. -/
def nullPointer : String := "NULL()"

/-- The registry itself gives an initial value. -/
def declaresInitialValue (q : Quantity) : Bool :=
  match q.initialValue with
  | some value => !(q.storage == .pointer && value == nullPointer)
  | none => false

/-- The value that storage of a type is filled with by default. -/
def defaultValue? (typeName : String) : Option String :=
  let name := Text.lower typeName
  if name == "real" then some "nan"
  else if name == "integer" then some "HUGE(1)"
  else if name == "character" then some "\"\""
  else none

/-- The value that the allocation routine assigns. -/
def runtimeInitialValue? (q : Quantity) : Option String :=
  if q.declaresInitialValue then q.initialValue else defaultValue? q.type.name

def dimensionText (q : Quantity) : String := Dimension.listText q.dimensions

end Quantity

/-- A slice of an array at a fixed index along one dimension. -/
structure Element extends Quantity where
  parentName : String
  /-- The subscripts of the parent: local names and colons. -/
  subscripts : List String
deriving DecidableEq

/-- The slice as it stands in an assignment. -/
def Element.target (e : Element) : String :=
  e.parentName ++ "(" ++ Text.join "," e.subscripts ++ ")"

structure Variable extends Quantity where
  access : Access
  isProtected : Bool
  /-- The declared extent of each dimension. -/
  extents : List String
  elements : List Element
deriving DecidableEq

namespace Variable

/-- The variable as it stands in an assignment. -/
def target (v : Variable) : String := v.localName

/-- The shape in a declaration, empty for scalars. -/
def declaredShape (v : Variable) : String :=
  if v.extents.isEmpty then "" else Dimension.listText v.extents

/-- The type in a declaration. -/
def typeSpec (v : Variable) : String :=
  if v.type.home.isSome then "type(" ++ v.type.name ++ ")"
  else if v.kind.isEmpty then v.type.name
  else v.type.name ++ "(" ++ v.kind ++ ")"

end Variable

end FieldRegistry
