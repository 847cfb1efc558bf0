import FieldRegistry.Document.Node
import FieldRegistry.Json.Writer

/-!
Elements from JSON values. An element is an object with the four known members, or an array of their
values in order whose tail may be missing. The first problem in the order of the value is reported.
-/

namespace FieldRegistry

/-- How a value of the wrong kind is named in a report. -/
def Json.described : Json → String
  | .null => "null"
  | .bool true => "boolean `true`"
  | .bool false => "boolean `false`"
  | .number (.natural n) => "integer `" ++ Text.decimal n ++ "`"
  | .number (.negative n) => "integer `-" ++ Text.decimal n ++ "`"
  | .number (.float x) => "floating point `" ++ Text.floatText x ++ "`"
  | .string s => "string " ++ Text.quoted s
  | .array _ => "sequence"
  | .object _ => "map"

namespace Node

open Json (Flaw)

def wrongType (found : Json) (wanted : String) : Flaw :=
  .unfit ("invalid type: " ++ found.described ++ ", expected " ++ wanted)

def asString : Json → Except Flaw String
  | .string s => .ok s
  | other => .error (wrongType other "a string")

/-- A text may be given as `null`. -/
def asText : Json → Except Flaw (Option String)
  | .null => .ok none
  | other => (asString other).map some

def asAttributes : Json → Except Flaw (List (String × String))
  | .object members => members.mapM fun (name, value) => (asString value).map (name, ·)
  | other => .error (wrongType other "a map")

/-- The members of an element that were read so far. -/
structure Draft where
  tag : Option String := none
  attributes : List (String × String) := []
  text : Option String := none
  children : List Node := []

def Draft.finish (draft : Draft) : Except Flaw Node :=
  match draft.tag with
  | some tag => .ok ⟨tag, draft.attributes, draft.text, draft.children⟩
  | none => .error (.unfit "missing field `tag`")

def unknownMember (name : String) : Flaw :=
  .unfit ("unknown field `" ++ name ++ "`, expected one of `tag`, `attributes`, `text`, `children`")

mutual

/-- The element that a value stands for. -/
def ofJson : Json → Except Flaw Node
  | .object members => (readMembers members {}).bind Draft.finish
  | .array items => readSlots items
  | other => .error (wrongType other "struct Node")
termination_by structural value => value

/-- The members of the object form, in their order. -/
def readMembers : List (String × Json) → Draft → Except Flaw Draft
  | [], draft => .ok draft
  | (name, value) :: rest, draft =>
    if name == "tag" then
      (asString value).bind fun tag => readMembers rest { draft with tag := some tag }
    else if name == "attributes" then
      (asAttributes value).bind fun attributes => readMembers rest { draft with attributes }
    else if name == "text" then
      (asText value).bind fun text => readMembers rest { draft with text }
    else if name == "children" then
      (readChildren value).bind fun children => readMembers rest { draft with children }
    else .error (unknownMember name)
termination_by structural members => members

/-- The array form: tag, attributes, text and children. -/
def readSlots : List Json → Except Flaw Node
  | [] => .error (.unfit "invalid length 0, expected struct Node with 4 elements")
  | [tag] => (asString tag).map fun tag => ⟨tag, [], none, []⟩
  | [tag, attributes] =>
    (asString tag).bind fun tag => (asAttributes attributes).map fun attributes =>
      ⟨tag, attributes, none, []⟩
  | [tag, attributes, text] =>
    (asString tag).bind fun tag => (asAttributes attributes).bind fun attributes =>
      (asText text).map fun text => ⟨tag, attributes, text, []⟩
  | tag :: attributes :: text :: children :: extra =>
    (asString tag).bind fun tag => (asAttributes attributes).bind fun attributes =>
      (asText text).bind fun text => (readChildren children).bind fun children =>
        if extra.isEmpty then .ok ⟨tag, attributes, text, children⟩
        else .error (.unfit ("invalid length " ++ Text.decimal (4 + extra.length) ++
          ", expected fewer elements in array"))
termination_by structural items => items

def readChildren : Json → Except Flaw (List Node)
  | .array items => readItems items
  | other => .error (wrongType other "a sequence")
termination_by structural value => value

def readItems : List Json → Except Flaw (List Node)
  | [] => .ok []
  | value :: rest =>
    (ofJson value).bind fun node => (readItems rest).map (node :: ·)
termination_by structural items => items

end

end Node

end FieldRegistry
