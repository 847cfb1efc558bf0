import FieldRegistry.FileUnit
import FieldRegistry.Ranking

/-!
The routine of a module that allocates and initializes its storage. Variables of derived type are
followed down to the leaves that are stored; each leaf gives its own steps.
-/

namespace FieldRegistry

inductive AllocationStep where
  /-- Allocates storage after a check whether it exists already. -/
  | allocate (target statusCheck : String) (nullify : Bool) (extents : String)
  /-- Assigns an initial value. -/
  | assign (target value : String)
deriving DecidableEq

/-- A stored variable, with the text that leads to it through variables of derived type. -/
structure Leaf where
  path : String
  stored : Variable
deriving DecidableEq

namespace Leaf

/-- The extents of allocated storage, nothing for scalars. -/
def extentsText (dimensions : List String) : String :=
  if dimensions.isEmpty then "" else Dimension.listText (dimensions.map Dimension.extent)

/-- The allocation of a leaf that is a pointer or allocatable. -/
def allocations (leaf : Leaf) : List AllocationStep :=
  match leaf.stored.storage.statusCheck? with
  | some check =>
    [.allocate (leaf.path ++ leaf.stored.localName) check (leaf.stored.storage == .pointer)
      (extentsText leaf.stored.dimensions)]
  | none => []

def initialization (path target : String) (value : Option String) : List AllocationStep :=
  match value with
  | some value => [.assign (path ++ target) value]
  | none => []

/-- Initial values of a leaf and of those of its elements that declare one. -/
def initializations (leaf : Leaf) : List AllocationStep :=
  if leaf.stored.storage == .parameter then []
  else
    initialization leaf.path leaf.stored.target leaf.stored.runtimeInitialValue? ++
      (leaf.stored.elements.filter (·.declaresInitialValue)).flatMap fun e =>
        initialization leaf.path e.target e.runtimeInitialValue?

def steps (leaf : Leaf) : List AllocationStep := leaf.allocations ++ leaf.initializations

end Leaf

/-- The leaves of a variable, through at most `fuel` derived types inside each other. -/
def Catalog.leavesWithin (catalog : Catalog) (scope : String) :
    Nat → String → Variable → Except Fault (List Leaf)
  | fuel, path, v =>
    if v.type.isAggregate then
      if !v.dimensions.isEmpty then
        .error (.unsupported "Arrays of DDT objects not implemented" v.localName scope)
      else
        let missing := Fault.unsupported
          ("DDT " ++ v.type.name ++ " missing from the type catalog") v.localName scope
        match fuel, catalog.aggregate? v.type.name with
        | fuel + 1, some a =>
          ((catalog.flatten a).mapM fun member =>
            catalog.leavesWithin scope fuel (path ++ v.localName ++ "%") member).map List.flatten
        | _, _ => .error missing
    else .ok [⟨path, v⟩]

/-- The leaves of a variable. Derived types inside each other are different types of the catalog, so
its size bounds the nesting. -/
def Catalog.leaves (catalog : Catalog) (scope : String) (v : Variable) :
    Except Fault (List Leaf) :=
  catalog.leavesWithin scope catalog.entries.length "" v

/-- The routine of one scope. -/
structure AllocationRoutine where
  name : String
  /-- Dimension arguments in the order of their ranks. -/
  dimensions : List String
  steps : List AllocationStep
deriving DecidableEq

namespace AllocationRoutine

def nameFor (scope : String) : String := "allocate_" ++ scope ++ "_fields"

/-- The flag that asks for initial values. -/
def initFlag : String := "set_init_val"

/-- The flag that asks to replace existing storage. -/
def reallocFlag : String := "reallocate"

/-- Dimensions, then the two optional flags. -/
def arguments (routine : AllocationRoutine) : List String :=
  routine.dimensions ++ [initFlag ++ "_in", reallocFlag ++ "_in"]

/-- The leaves of a file in the order of its dictionary. -/
def leaves (unit : FileUnit) (catalog : Catalog) : Except Fault (List Leaf) :=
  (unit.dictionary.declared.mapM (catalog.leaves unit.name)).map List.flatten

/-- The routine of a file. The ranking that is the state learns the file's dimensions even if there
is no routine. -/
def build (unit : FileUnit) (catalog : Catalog) : Action Fault Ranking AllocationRoutine := do
  let (dimensions, ranking) := (← get).sort unit.dictionary.knownDimensions
  set ranking
  match leaves unit catalog with
  | .error fault => throw fault
  | .ok leaves =>
    return { name := nameFor unit.name, dimensions, steps := leaves.flatMap Leaf.steps }

end AllocationRoutine

end FieldRegistry
