import FieldRegistry.Json.Basic

/-!
The elements of a registry document: a tag, attributes, a text and child elements.
-/

namespace FieldRegistry

structure Node where
  tag : String
  /-- Attributes in the order of their names. -/
  attributes : List (String × String) := []
  text : Option String := none
  children : List Node := []

namespace Node

/-- The value of an attribute. -/
def get? (node : Node) (name : String) : Option String :=
  (node.attributes.find? (·.1 == name)).map (·.2)

/-- The value of an attribute, empty where it is absent. -/
def get (node : Node) (name : String) : String := (node.get? name).getD ""

/-- The text of an element, empty where it is absent. -/
def body (node : Node) : String := node.text.getD ""

/-- The first attribute that is not among `known`. -/
def strangeAttribute? (node : Node) (known : List String) : Option String :=
  (node.attributes.map (·.1)).find? fun name => !known.contains name

mutual

/-- The JSON object of an element. Empty attributes, an absent text and empty children are left
out. -/
def json : Node → Json
  | ⟨tag, attributes, text, children⟩ =>
    .object (
      (if attributes.isEmpty then []
        else [("attributes", .object (attributes.map fun (name, value) => (name, .string value)))]) ++
      (if children.isEmpty then [] else [("children", .array (jsonItems children))]) ++
      [("tag", .string tag)] ++
      (text.elim [] fun s => [("text", .string s)]))
termination_by structural node => node

def jsonItems : List Node → List Json
  | [] => []
  | node :: rest => node.json :: jsonItems rest
termination_by structural nodes => nodes

end

end Node

end FieldRegistry
