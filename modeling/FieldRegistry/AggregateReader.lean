import FieldRegistry.Variable.Reader

/-!
Derived types from document elements. A type takes its members out of the dictionary of its scope.
-/

namespace FieldRegistry

/-- Registers a type in the catalog that is the state. -/
def Catalog.announce (name scope : String) (aggregate : Option Aggregate) :
    Action Fault Catalog Unit := do
  let catalog ← get
  match catalog.register name scope aggregate with
  | .error fault => throw fault
  | .ok catalog' =>
    Logged.debug ("Adding type " ++ name ++ " from " ++ scope ++ " as a known type")
    set catalog'

namespace Aggregate

/-- A yes-or-no attribute, no where it is absent. -/
def readFlag (node : Node) (attributeName aggregate scope : String) : Except Fault Bool :=
  match node.get? attributeName with
  | none => .ok false
  | some value =>
    let word := Text.lower (Text.trim value)
    if ["true", "1", "yes"].contains word then .ok true
    else if ["false", "0", "no"].contains word then .ok false
    else .error (.invalidAttributeValue attributeName value aggregate scope)

/-- The items of a list with commas, in lower case and without blank ones. -/
def listItems (text : String) : List String :=
  ((Text.splitAll ',' text).map fun item => Text.lower (Text.trim item)).filter (!·.isEmpty)

/-- Whether a member is meant for a dynamical core; a list without items means all. -/
def isFor (child : Node) (dycore : String) : Bool :=
  let cores := listItems (child.get "dycore")
  cores.isEmpty || cores.contains (Text.lower dycore)

/-- The type that another one extends, by its own spelling. -/
def readParent (catalog : Catalog) (node : Node) (name scope : String) :
    Except Fault (Option String) :=
  match node.get? "extends" with
  | none => .ok none
  | some parent =>
    match catalog.aggregate? parent with
    | some a => .ok (some a.name)
    | none =>
      .error (.unknownParentType name parent scope (catalog.suggestAggregate? parent))

/-- The attributes of a definition. -/
structure Header where
  name : String
  parent : Option String
  isBindC : Bool
  isPrivate : Bool

def readHeader (catalog : Catalog) (scope : String) (node : Node) : Except Fault Header := do
  let name := node.get "type"
  let parent ← readParent catalog node name scope
  let isBindC ← readFlag node "bindC" name scope
  if parent.isSome && isBindC then throw (.conflictingAttributes name scope)
  let isPrivate ← readFlag node "private" name scope
  return { name, parent, isBindC, isPrivate }

/-- Takes the member that a child names, unless it is meant for another core. -/
def takeMember (name dycore : String) (child : Node) :
    Action Fault Dictionary (Option Variable) := do
  let scope := (← get).name
  if child.tag != "data" then throw (.unknownElement child.tag name scope)
  if isFor child dycore then
    let member := Text.trim child.body
    match ← Dictionary.remove member with
    | some v => return some v
    | none => throw (.unknownMember member name scope)
  else
    Logged.debug ("Skipping " ++ child.body ++ " in DDT " ++ name ++ " for dycore " ++ dycore)
    return none

/-- Reads a derived type and moves its members out of the dictionary. -/
def ofNode (catalog : Catalog) (dycore : String) (node : Node) :
    Action Fault Dictionary Aggregate := do
  let scope := (← get).name
  let header ← match readHeader catalog scope node with
    | .ok header => pure header
    | .error fault => throw fault
  let taken ← node.children.mapM (takeMember header.name dycore)
  return {
    name := header.name
    scope
    members := taken.filterMap id
    parent := header.parent
    isPrivate := header.isPrivate
    isBindC := header.isBindC }

end Aggregate

end FieldRegistry
