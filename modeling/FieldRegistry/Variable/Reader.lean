import FieldRegistry.Catalog
import FieldRegistry.Dictionary
import FieldRegistry.Document.Node

/-!
Variables and array elements from document elements. Types are found in the catalog; dimensions of
fixed shape and indices are found in the dictionary of the scope.
-/

namespace FieldRegistry

/-- The last child with a tag. -/
def Node.lastChild? (node : Node) (tag : String) : Option Node :=
  (node.children.filter (·.tag == tag)).getLast?

/-- The trimmed text of the last child with a tag, where it is not blank. -/
def Node.lastText? (node : Node) (tag : String) : Option String :=
  (node.lastChild? tag).bind fun child => Text.trimmed? child.body

namespace Quantity

/-- What holds where an element says nothing. -/
structure Defaults where
  typeName : String := ""
  units : String := ""
  kind : String := ""
  storage : Storage := .plain

def readStorage (value element scope : String) : Except Fault Storage :=
  match Storage.parse? value with
  | some storage => .ok storage
  | none => .error (.invalidAttributeValue "allocatable" value element scope)

def readInputNames (node : Node) : Option (List String) :=
  (node.lastChild? "ic_file_input_names").bind fun child =>
    let names := Text.words child.body
    if names.isEmpty then none else some names

/-- An initial value as written; a pointer without one is null. -/
def readInitialValue (node : Node) (storage : Storage) : Option String :=
  match node.lastText? "initial_value" with
  | some value => some value
  | none => if storage == .pointer then some nullPointer else none

/-- Reads what variables and array elements have in common. Children that are not known are left to
the caller. -/
def read (catalog : Catalog) (scope : String) (node : Node) (localName : String)
    (dimensions : List String) (defaults : Defaults) : Except Fault Quantity := do
  let typeName := (node.get? "type").getD defaults.typeName
  let kind := (node.get? "kind").getD defaults.kind
  let type ← match catalog.lookup? typeName with
    | some entry => pure entry.ref
    | none => throw (.unknownType typeName localName scope (catalog.suggest? typeName))
  if type.isAggregate && !kind.isEmpty then
    throw (.illegalKind type.name localName scope)
  let storage ← match node.get? "allocatable" with
    | some value => readStorage value localName scope
    | none => pure defaults.storage
  return {
    localName, type, kind, dimensions, storage
    standardName := node.get "standard_name"
    units := (node.get? "units").getD defaults.units
    longName := node.lastText? "long_name"
    initialValue := readInitialValue node storage
    inputNames := readInputNames node }

end Quantity

namespace Element

def knownAttributes : List String :=
  ["index_name", "index_pos", "standard_name", "units", "type", "kind", "allocatable"]

def knownChildren : List String := ["long_name", "initial_value", "ic_file_input_names"]

/-- The subscripts of the parent: the index at every dimension that equals the position, a colon at
the others. -/
def subscriptsAt (dimensions : List String) (position index : String) : List String :=
  dimensions.map fun dimension => if dimension == position then index else ":"

/-- Reads an element of the array `parent`. -/
def ofNode (catalog : Catalog) (dictionary : Dictionary) (parent : Quantity) (node : Node) :
    Checked Fault Element := do
  let scope := dictionary.name
  if let some name := node.strangeAttribute? knownAttributes then
    throw (.unknownAttribute name parent.localName scope)
  if let some child := node.children.find? fun child => !knownChildren.contains child.tag then
    throw (.unknownContent child.tag parent.localName scope)
  let indexName := node.get "index_name"
  let some index ← dictionary.searchStandard indexName
    | throw (.unknownIndex indexName parent.localName scope)
  let position := node.get "index_pos"
  if !parent.dimensions.contains position then
    throw (.elementDimensionNotFound position parent.localName parent.dimensions scope)
  let localName := parent.localName ++ "(" ++
    Text.join "," (subscriptsAt parent.dimensions position indexName) ++ ")"
  let quantity ← Checked.ofExcept (Quantity.read catalog scope node localName
    (parent.dimensions.filter (· != position))
    { typeName := parent.type.name, units := parent.units, kind := parent.kind,
      storage := parent.storage })
  return { quantity with
    parentName := parent.localName
    subscripts := subscriptsAt parent.dimensions position index.localName }

end Element

namespace Variable

def knownAttributes : List String :=
  ["access", "allocatable", "dycore", "extends", "kind", "local_name", "name", "standard_name",
   "type", "units", "version"]

def knownChildren : List String :=
  ["dimensions", "long_name", "initial_value", "element", "ic_file_input_names"]

/-- The access of a variable, and whether other modules may only read it. -/
def accessOf? (text : String) : Option (Access × Bool) :=
  if text == "public" then some (.everywhere, false)
  else if text == "private" then some (.inModule, false)
  else if text == "protected" then some (.everywhere, true)
  else none

/-- A component of a fixed shape: the value of a constant, or the local name of the variable with
that standard name. -/
def declaredComponent (dictionary : Dictionary) (localName name : String) :
    Checked Fault String := do
  match Dimension.constant? name with
  | some n => return Text.decimal n
  | none =>
    match ← dictionary.searchStandard name with
    | some v => return v.localName
    | none => throw (.unresolvedDimension name localName dictionary.name)

/-- The declared extent of one dimension token. -/
def declaredExtent (dictionary : Dictionary) (storage : Storage) (localName token : String) :
    Checked Fault String := do
  if Dimension.hasStep token then
    throw (.dimensionStep token localName dictionary.name)
  if storage.hasFixedShape then
    let names ← (Dimension.components token).mapM (declaredComponent dictionary localName)
    return Text.join ":" names
  else return ":"

/-- The dimension tokens and the declared extents that were read so far. -/
structure Shape where
  tokens : List String := []
  extents : List String := []

/-- Takes one child into account. The last `dimensions` child gives the tokens, the last one that is
not blank the extents. -/
def readShape (dictionary : Dictionary) (storage : Storage) (localName : String) (shape : Shape)
    (child : Node) : Checked Fault Shape := do
  if child.tag == "dimensions" then
    let tokens := Dimension.tokens child.body
    let extents ← tokens.mapM (declaredExtent dictionary storage localName)
    return { tokens, extents := if extents.isEmpty then shape.extents else extents }
  else if knownChildren.contains child.tag then return shape
  else throw (.unknownContent child.tag localName dictionary.name)

/-- Reads a variable. -/
def ofNode (catalog : Catalog) (dictionary : Dictionary) (node : Node) :
    Checked Fault Variable := do
  let scope := dictionary.name
  let localName := node.get "local_name"
  if let some name := node.strangeAttribute? knownAttributes then
    throw (.unknownAttribute name localName scope)
  let accessText := (node.get? "access").getD "public"
  let some (access, isProtected) := accessOf? accessText
    | throw (.invalidAttributeValue "access" accessText localName scope)
  let storage ← Checked.ofExcept
    (Quantity.readStorage (node.get "allocatable") localName scope)
  let shape ← node.children.foldlM (readShape dictionary storage localName) {}
  let quantity ← Checked.ofExcept
    (Quantity.read catalog scope node localName shape.tokens { storage })
  let elements ← (node.children.filter (·.tag == "element")).mapM
    (Element.ofNode catalog dictionary quantity)
  if quantity.storage == .parameter && quantity.initialValue.isNone then
    throw (.missingInitialValue localName scope)
  Logged.debug ("Found registry Variable, " ++ localName ++ " (" ++ quantity.standardName ++ ")")
  return { quantity with access, isProtected, extents := shape.extents, elements }

end Variable

end FieldRegistry
