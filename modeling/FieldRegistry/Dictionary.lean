import FieldRegistry.Fault
import FieldRegistry.Journal
import FieldRegistry.OrderedMap
import FieldRegistry.Variable.Basic

/-!
The variables of one scope. Local and standard names are unique in any letter case, and a standard
name stays taken when its variable leaves the scope.
-/

namespace FieldRegistry

structure Dictionary where
  name : String
  kind : String
  /-- Variables by local name in lower case, in the order in which they were added. -/
  byLocalName : OrderedMap Variable
  /-- Every standard name that was ever added, in lower case. -/
  reserved : List String
  /-- Every dimension name that an added variable uses, in lower case, by first use. -/
  knownDimensions : List String
deriving DecidableEq

namespace Dictionary

def empty (name kind : String) : Dictionary := ⟨name, kind, .empty, [], []⟩

/-- Adds a name to a list of names unless it is there. -/
def insertName (names : List String) (name : String) : List String :=
  if names.contains name then names else names ++ [name]

/-- Variables in the order in which they were added. -/
def declared (dictionary : Dictionary) : List Variable := dictionary.byLocalName.values

/-- The variable with a local name, by key. -/
def findLocal? (dictionary : Dictionary) (name : String) : Option Variable :=
  dictionary.byLocalName.get? (Text.lower name)

/-- The first variable with a standard name. -/
def findStandard? (dictionary : Dictionary) (name : String) : Option Variable :=
  dictionary.declared.find? fun v => Text.sameLetters v.standardName name

/-- Adds a variable to the dictionary that is the state. -/
def add (v : Variable) : Action Fault Dictionary Unit := do
  let dictionary ← get
  if let some other := dictionary.findLocal? v.localName then
    throw (.duplicateLocalName v.localName v.standardName dictionary.name
      (if other.standardName == v.standardName then none else some other.standardName))
  if dictionary.reserved.contains (Text.lower v.standardName) then
    throw (.duplicateStandardName v.standardName v.localName dictionary.name
      ((dictionary.findStandard? v.standardName).map (·.localName)))
  v.dimensions.forM fun token =>
    modify fun d => { d with
      knownDimensions := (Dimension.named token).foldl insertName d.knownDimensions }
  modify fun d => { d with reserved := insertName d.reserved (Text.lower v.standardName) }
  modify fun d => { d with byLocalName := d.byLocalName.insert (Text.lower v.localName) v }

/-- Takes out the first variable with a standard name, by its key. The name stays reserved. -/
def take? (dictionary : Dictionary) (name : String) : Option (Variable × Dictionary) := do
  let entry ← dictionary.byLocalName.entries.find? fun entry =>
    Text.sameLetters entry.2.standardName name
  let found ← dictionary.byLocalName.remove? entry.1
  return (found.1, { dictionary with byLocalName := found.2 })

/-! ## Searches that report a miss -/

def searchLocal (dictionary : Dictionary) (name : String) : Logged (Option Variable) := do
  let found := dictionary.findLocal? name
  if found.isNone then
    Logged.debug ("Local name, " ++ name ++ ", not found in " ++ dictionary.name)
  return found

def searchStandard (dictionary : Dictionary) (name : String) : Logged (Option Variable) := do
  let found := dictionary.findStandard? name
  if found.isNone then
    Logged.debug ("Standard name, " ++ name ++ ", not found in " ++ dictionary.name)
  return found

/-- Takes a variable out of the dictionary that is the state. -/
def remove {ε : Type} (name : String) : Action ε Dictionary (Option Variable) := do
  let dictionary ← get
  match dictionary.take? name with
  | some (v, rest) =>
    set rest
    return some v
  | none =>
    Logged.debug ("Cannot remove " ++ name ++ " from " ++ dictionary.name ++
      ", variable not found.")
    return none

end Dictionary

end FieldRegistry
