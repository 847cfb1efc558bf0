import FieldRegistry.Fault
import FieldRegistry.Text.Similarity
import FieldRegistry.Variable.Basic

/-!
The types that a run knows. The catalog starts with the intrinsic types and only grows; names are
found in any letter case.
-/

namespace FieldRegistry

/-- A derived type: its own members and the type it extends. -/
structure Aggregate where
  name : String
  /-- The scope that defines the type. -/
  scope : String
  members : List Variable
  parent : Option String
  isPrivate : Bool
  isBindC : Bool
deriving DecidableEq

def Aggregate.access (a : Aggregate) : Access := if a.isPrivate then .inModule else .everywhere

/-- A definition needs at least one member of its own. -/
def Aggregate.checkMembers (a : Aggregate) : Except Fault Unit :=
  if a.members.isEmpty then .error (.noMembers a.name a.scope) else .ok ()

/-- A known type. -/
structure TypeEntry where
  name : String
  /-- The scope that defines the type, none for intrinsic types. -/
  scope : Option String
  aggregate : Option Aggregate
deriving DecidableEq

/-- What a variable of this type keeps. -/
def TypeEntry.ref (entry : TypeEntry) : TypeRef :=
  ⟨entry.name, entry.scope, entry.aggregate.isSome⟩

/-- Known types in the order of their registration. -/
structure Catalog where
  entries : List TypeEntry
deriving DecidableEq

namespace Catalog

def intrinsicNames : List String := ["character", "complex", "integer", "logical", "real"]

def initial : Catalog := ⟨intrinsicNames.map fun name => ⟨name, none, none⟩⟩

def lookup? (catalog : Catalog) (name : String) : Option TypeEntry :=
  catalog.entries.find? fun entry => Text.sameLetters entry.name name

def aggregate? (catalog : Catalog) (name : String) : Option Aggregate :=
  (catalog.lookup? name).bind (·.aggregate)

/-- Adds a type that `scope` defines. -/
def register (catalog : Catalog) (name scope : String) (aggregate : Option Aggregate) :
    Except Fault Catalog :=
  match catalog.lookup? name with
  | some entry => .error (.nameCollision name scope (entry.scope.getD "intrinsic"))
  | none => .ok ⟨catalog.entries ++ [⟨name, some scope, aggregate⟩]⟩

def typeNames (catalog : Catalog) : List String := catalog.entries.map (·.name)

/-- The least closeness of a suggestion. -/
def suggestionThreshold : Float := 0.8

/-- The known name closest to an unknown one. -/
def suggest? (catalog : Catalog) (name : String) : Option String :=
  (Text.closest name catalog.typeNames suggestionThreshold 1).head?

/-- The name of a derived type closest to an unknown one. -/
def suggestAggregate? (catalog : Catalog) (name : String) : Option String :=
  let names := (catalog.entries.filter (·.aggregate.isSome)).map (·.name)
  (Text.closest name names suggestionThreshold 1).head?

/-- Own members and then those of the ancestors, of which at most `fuel` are visited. -/
def flattenWithin (catalog : Catalog) : Nat → Aggregate → List Variable
  | 0, a => a.members
  | fuel + 1, a =>
    a.members ++ match a.parent.bind catalog.aggregate? with
      | some parent => catalog.flattenWithin fuel parent
      | none => []

/-- Own members and then those of all ancestors. The ancestors are different types of the catalog, so
its size bounds their number. -/
def flatten (catalog : Catalog) (a : Aggregate) : List Variable :=
  catalog.flattenWithin catalog.entries.length a

end Catalog

end FieldRegistry
