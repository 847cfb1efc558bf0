import FieldRegistry.Json.Writer

/-!
Schemas for JSON values and what a value violates. A schema is a list of keywords that all must
hold; keywords that speak of one kind of value ignore the others.
-/

namespace FieldRegistry

inductive Json.Kind where
  | null
  | boolean
  | number
  | integer
  | string
  | array
  | object
deriving DecidableEq

namespace Json.Kind

def text : Kind → String
  | null => "null"
  | boolean => "boolean"
  | number => "number"
  | integer => "integer"
  | string => "string"
  | array => "array"
  | object => "object"

def holds : Kind → Json → Bool
  | null, .null => true
  | boolean, .bool _ => true
  | number, .number _ => true
  | integer, .number (.float x) => x.floor == x
  | integer, .number _ => true
  | string, .string _ => true
  | array, .array _ => true
  | object, .object _ => true
  | _, _ => false

end Json.Kind

/-- A part of a pattern: one character of a class, or several of them. -/
inductive Pattern.Part where
  | one (isMember : Char → Bool)
  | many (isMember : Char → Bool)

/-- A pattern for whole texts, with the notation it is shown in. -/
structure Pattern where
  shown : String
  parts : List Pattern.Part

def Pattern.fits : List Pattern.Part → List Char → Bool
  | [], [] => true
  | .one isMember :: parts, c :: cs => isMember c && fits parts cs
  | .many isMember :: parts, c :: cs =>
    isMember c && (fits (.many isMember :: parts) cs || fits parts cs)
  | _, _ => false

mutual

inductive Schema where
  /-- The schema defined under a name. -/
  | named (name : String)
  | keywords (all : List Schema.Keyword)

inductive Schema.Keyword where
  | kind (kind : Json.Kind)
  | required (names : List String)
  | properties (schemas : List (String × Schema))
  /-- No members but the known ones. -/
  | closed (known : List String)
  /-- A schema for the members that are not known. -/
  | others (known : List String) (schema : Schema)
  | items (schema : Schema)
  | minLength (least : Nat)
  | exactly (value : String)
  | oneOf (options : List String)
  | pattern (pattern : Pattern)
  | allOf (schemas : List Schema)
  /-- A value that satisfies the first schema has to satisfy the second. -/
  | whenThen (condition consequence : Schema)

end

namespace Schema

structure Violation where
  problem : String
  /-- The names and positions that lead to the value. -/
  path : List String

/-- A step of a path with its two special characters escaped. -/
def escapeStep (step : String) : String :=
  String.join (step.toList.map fun c =>
    if c == '~' then "~0" else if c == '/' then "~1" else String.ofList [c])

def Violation.message (v : Violation) : String :=
  v.problem ++ " at '" ++ String.join (v.path.map fun step => "/" ++ escapeStep step) ++ "'"

/-- The options of an enumeration; of more than three only the first two are named. -/
def listOptions (options : List String) : String :=
  match options.map Json.stringText with
  | [] => ""
  | [a] => a
  | [a, b] => a ++ " or " ++ b
  | [a, b, c] => a ++ ", " ++ b ++ " or " ++ c
  | a :: b :: rest => a ++ ", " ++ b ++ " or " ++ Text.decimal rest.length ++ " other candidates"

def strangerList (names : List String) : String :=
  Text.join ", " (names.map fun name => "'" ++ name ++ "'") ++
    (if names.length == 1 then " was" else " were") ++ " unexpected"

/-- What the named schemas say about a value at a path. -/
abbrev Lookup := String → List String → Json → List Violation

mutual

/-- What a value at a path violates. -/
def violations (lookup : Lookup) : Schema → List String → Json → List Violation
  | .named name, path, value => lookup name path value
  | .keywords all, path, value => keywordsViolations lookup all path value
termination_by structural schema => schema

def keywordsViolations (lookup : Lookup) : List Keyword → List String → Json → List Violation
  | [], _, _ => []
  | keyword :: rest, path, value =>
    keywordViolations lookup keyword path value ++ keywordsViolations lookup rest path value
termination_by structural all => all

def keywordViolations (lookup : Lookup) : Keyword → List String → Json → List Violation
  | .kind kind, path, value =>
    if kind.holds value then []
    else [⟨value.text ++ " is not of type " ++ Json.stringText kind.text, path⟩]
  | .required names, path, .object members =>
    (names.filter fun name => !members.any (·.1 == name)).map fun name =>
      ⟨Json.stringText name ++ " is a required property", path⟩
  | .properties schemas, path, .object members => propertyViolations lookup schemas path members
  | .closed known, path, .object members =>
    let strangers := (members.map (·.1)).filter fun name => !known.contains name
    if strangers.isEmpty then []
    else [⟨"Additional properties are not allowed (" ++ strangerList strangers ++ ")", path⟩]
  | .others known schema, path, .object members =>
    (members.filter fun (name, _) => !known.contains name).flatMap fun (name, value) =>
      violations lookup schema (path ++ [name]) value
  | .items schema, path, .array items =>
    items.zipIdx.flatMap fun (value, i) =>
      violations lookup schema (path ++ [Text.decimal i]) value
  | .minLength least, path, .string s =>
    if least ≤ s.length then []
    else [⟨Json.stringText s ++ " is shorter than " ++ Text.decimal least ++
      (if least == 1 then " character" else " characters"), path⟩]
  | .exactly wanted, path, value =>
    match value with
    | .string s => if s == wanted then [] else [⟨Json.stringText wanted ++ " was expected", path⟩]
    | _ => [⟨Json.stringText wanted ++ " was expected", path⟩]
  | .oneOf options, path, value =>
    match value with
    | .string s =>
      if options.contains s then []
      else [⟨value.text ++ " is not one of " ++ listOptions options, path⟩]
    | _ => [⟨value.text ++ " is not one of " ++ listOptions options, path⟩]
  | .pattern pattern, path, .string s =>
    if Pattern.fits pattern.parts s.toList then []
    else [⟨Json.stringText s ++ " does not match \"" ++ pattern.shown ++ "\"", path⟩]
  | .allOf schemas, path, value => allViolations lookup schemas path value
  | .whenThen condition consequence, path, value =>
    if (violations lookup condition path value).isEmpty
    then violations lookup consequence path value else []
  | _, _, _ => []
termination_by structural keyword => keyword

def propertyViolations (lookup : Lookup) :
    List (String × Schema) → List String → List (String × Json) → List Violation
  | [], _, _ => []
  | (name, schema) :: rest, path, members =>
    ((members.filter (·.1 == name)).flatMap fun (_, value) =>
      violations lookup schema (path ++ [name]) value) ++ propertyViolations lookup rest path members
termination_by structural schemas => schemas

def allViolations (lookup : Lookup) : List Schema → List String → Json → List Violation
  | [], _, _ => []
  | schema :: rest, path, value =>
    violations lookup schema path value ++ allViolations lookup rest path value
termination_by structural schemas => schemas

end

theorem kind_eq_nil {lookup : Lookup} {kind : Json.Kind} {path : List String} {value : Json} :
    keywordViolations lookup (.kind kind) path value = [] ↔ kind.holds value = true := by
  simp [keywordViolations]

/-- A schema with the named schemas it may refer to. -/
structure Document where
  definitions : List (String × Schema) := []
  root : Schema

/-- Looks up named schemas, at most `fuel` of them inside each other. -/
def Document.lookup (document : Document) : Nat → Lookup
  | 0, _, _, _ => []
  | fuel + 1, name, path, value =>
    match document.definitions.lookup name with
    | some schema => violations (document.lookup fuel) schema path value
    | none => []

/-- The violations of a value. Between two levels of the value no definition is met twice, which
bounds the number of lookups. -/
def Document.violations (document : Document) (value : Json) : List Violation :=
  let fuel := (document.definitions.length + 1) * (value.depth + 2)
  Schema.violations (document.lookup fuel) document.root [] value

/-- The messages of some violations, in the order of their characters. -/
def report (violations : List Violation) : List String :=
  (violations.map Violation.message).mergeSort fun a b => decide (a ≤ b)

/-- The messages about a value. -/
def Document.messages (document : Document) (value : Json) : List String :=
  report (document.violations value)

/-- What a value violates. -/
abbrev Check := Json → List Violation

/-- The check that a schema file stands for, none where its value is no schema. -/
abbrev Validator := Json → Option Check

end Schema

end FieldRegistry
