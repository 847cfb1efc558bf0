/-!
JSON values. In a value that has been read, the members of an object stand in the order of their
names, each name once.
-/

namespace FieldRegistry

/-- Numbers keep apart what is written as an integer of 64 bits and what is not. -/
inductive Json.Number where
  | natural (n : Nat)
  | negative (n : Nat)
  | float (x : Float)

inductive Json where
  | null
  | bool (b : Bool)
  | number (n : Json.Number)
  | string (s : String)
  | array (items : List Json)
  | object (members : List (String × Json))

namespace Json

/-- What is wrong with a text that should hold a value of some kind. -/
inductive Flaw where
  /-- The text ends inside the value. -/
  | ended
  /-- The text is no JSON. -/
  | malformed
  /-- The value is not of the kind asked for. -/
  | unfit (reason : String)
deriving DecidableEq

/-- Puts a member at its place in the order of names; a member of the same name is replaced. -/
def insertMember (name : String) (value : Json) : List (String × Json) → List (String × Json)
  | [] => [(name, value)]
  | (other, v) :: rest =>
    if name < other then (name, value) :: (other, v) :: rest
    else if name == other then (name, value) :: rest
    else (other, v) :: insertMember name value rest

/-- An object of members in any order; of members with one name the last counts. -/
def ofMembers (members : List (String × Json)) : Json :=
  .object (members.foldl (fun sorted (name, value) => insertMember name value sorted) [])

/-- The member of an object, nothing for other values. -/
def member? (name : String) : Json → Option Json
  | .object members => (members.find? (·.1 == name)).map (·.2)
  | _ => none

mutual

/-- The number of arrays and objects around the innermost value. -/
def depth : Json → Nat
  | .array items => depthItems items + 1
  | .object members => depthMembers members + 1
  | .null | .bool _ | .number _ | .string _ => 0
termination_by structural value => value

def depthItems : List Json → Nat
  | [] => 0
  | value :: rest => max value.depth (depthItems rest)
termination_by structural items => items

def depthMembers : List (String × Json) → Nat
  | [] => 0
  | (_, value) :: rest => max value.depth (depthMembers rest)
termination_by structural members => members

end

end Json

end FieldRegistry
