import FieldRegistry.AggregateReader
import FieldRegistry.Layout.Import

/-!
Files of a registry. Variables are built first, then the derived types in document order; a variable
whose type is defined in the same file is built right after that type.
-/

namespace FieldRegistry

open Layout (Import)

structure FileUnit where
  name : String
  kind : String
  dictionary : Dictionary
  /-- The derived types defined here, in document order. -/
  aggregateNames : List String
  /-- Explicit imports. -/
  uses : List Import
deriving DecidableEq

namespace FileUnit

/-- The elements allowed in a file. -/
inductive Item where
  | variableItem (node : Node)
  | aggregateItem (node : Node)
  | useItem (node : Node)

def Item.ofNode (scope : String) (node : Node) : Except Fault Item :=
  if node.tag == "variable" || node.tag == "array" then .ok (.variableItem node)
  else if node.tag == "ddt" then .ok (.aggregateItem node)
  else if node.tag == "use" then .ok (.useItem node)
  else .error (.unknownFileElement node.tag scope)

def Item.aggregate? : Item → Option Node
  | aggregateItem node => some node
  | _ => none

/-- An attribute that must be there and not be empty. -/
def requireUse (node : Node) (attributeName scope : String) : Except Fault String :=
  match node.get? attributeName with
  | some value => if value.isEmpty then .error (.illegalUse attributeName scope) else .ok value
  | none => .error (.illegalUse attributeName scope)

def readUse (scope : String) (node : Node) : Except Fault Import := do
  let origin ← requireUse node "module" scope
  let symbol ← requireUse node "reference" scope
  return { origin, symbol }

/-- The type that a variable asks for, in lower case. -/
def typeKey (node : Node) : String := Text.lower (node.get "type")

/-- What the first pass over a file has found. -/
structure Survey where
  dictionary : Dictionary
  /-- Variables whose type is defined in the file. -/
  deferred : List Node
  uses : List Import

def addVariable (catalog : Catalog) (dictionary : Dictionary) (node : Node) :
    Checked Fault Dictionary := do
  let v ← Variable.ofNode catalog dictionary node
  return (← (Dictionary.add v).alone dictionary).2

/-- The first pass: variables of types that are known already, and imports. -/
def surveyItem (catalog : Catalog) (ownTypes : List String) (survey : Survey) :
    Item → Checked Fault Survey
  | .variableItem node =>
    if ownTypes.contains (typeKey node) then
      return { survey with deferred := survey.deferred ++ [node] }
    else do
      let dictionary ← addVariable catalog survey.dictionary node
      return { survey with dictionary }
  | .useItem node => do
    let use ← Checked.ofExcept (readUse survey.dictionary.name node)
    return { survey with uses := survey.uses ++ [use] }
  | .aggregateItem _ => return survey

/-- The second pass: a derived type is registered, then the variables that waited for it are
built. -/
def defineAggregate (dycore : String) (deferred : List Node)
    (progress : Dictionary × List String) (node : Node) :
    Action Fault Catalog (Dictionary × List String) := do
  let catalog ← get
  let (a, dictionary) ← Action.within progress.1 (Aggregate.ofNode catalog dycore node)
  Catalog.announce a.name dictionary.name (some a)
  let catalog ← get
  let waiting := deferred.filter fun node => typeKey node == Text.lower a.name
  let dictionary ← (waiting.foldlM (addVariable catalog) dictionary : Checked Fault Dictionary)
  return (dictionary, progress.2 ++ [a.name])

/-- Reads a file. The types it defines stay in the catalog even if a later part fails. -/
def ofNode (dycore : String) (node : Node) : Action Fault Catalog FileUnit := do
  let name := node.get "name"
  let kind := node.get "type"
  let items ← (Checked.ofExcept (node.children.mapM (Item.ofNode name)) : Checked Fault _)
  let definitions := items.filterMap Item.aggregate?
  let ownTypes := (definitions.map typeKey).filter (!·.isEmpty)
  let catalog ← get
  let survey ← (items.foldlM (surveyItem catalog ownTypes) ⟨.empty name kind, [], []⟩ :
    Checked Fault Survey)
  let (dictionary, aggregateNames) ←
    definitions.foldlM (defineAggregate dycore survey.deferred) (survey.dictionary, [])
  return { name, kind, dictionary, aggregateNames, uses := survey.uses }

/-- The derived types defined here. -/
def aggregates (unit : FileUnit) (catalog : Catalog) : Except Fault (List Aggregate) :=
  unit.aggregateNames.mapM fun name =>
    match catalog.aggregate? name with
    | some a => .ok a
    | none => .error (.unsupported "DDT missing from the type catalog" name unit.name)

/-- The import of a variable's type, none for intrinsic types and those of this file. -/
def importOf? (unit : FileUnit) (v : Variable) : Option Import :=
  v.type.home.bind fun home =>
    if Text.sameLetters home unit.name then none else some ⟨home, v.type.name⟩

/-- The imports that the generated module needs: types of its variables, types of the members of its
derived types, and explicit ones. -/
def imports (unit : FileUnit) (catalog : Catalog) : Except Fault (List Import) := do
  let aggregates ← unit.aggregates catalog
  return unit.dictionary.declared.filterMap unit.importOf? ++
    (aggregates.flatMap catalog.flatten).filterMap unit.importOf? ++ unit.uses

end FileUnit

end FieldRegistry
