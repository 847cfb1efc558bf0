import FieldRegistry.Schema.Basic
import FieldRegistry.Text.Decimal

/-!
The schema of registry documents, version 1.0.
-/

namespace FieldRegistry.Schema

open Keyword

/-- Digits, a point, digits. -/
def versionPattern : Pattern :=
  ⟨"^[0-9]+\\.[0-9]+$", [.many Text.isDigit, .one (· == '.'), .many Text.isDigit]⟩

/-- Every element: a tag, string attributes, a text and child elements. -/
def nodeSchema : Schema :=
  keywords [kind .object, required ["tag"],
    closed ["tag", "attributes", "text", "children"],
    properties [
      ("tag", keywords [kind .string, minLength 1]),
      ("attributes", keywords [kind .object, others [] (keywords [kind .string])]),
      ("text", keywords [kind .string]),
      ("children", keywords [kind .array, items (named "node")])]]

/-- Elements with one of the tags are held to a further schema. -/
def whenTag (tag : Keyword) (consequence : List Keyword) : Schema :=
  keywords [whenThen (keywords [properties [("tag", keywords [tag])]]) (keywords consequence)]

/-- A section of the registry: a `file` has a name, a type and items. -/
def fileSchema : Schema :=
  keywords [allOf [named "node",
    whenTag (exactly "file") [required ["attributes"],
      properties [
        ("attributes", keywords [required ["name", "type"],
          properties [("type", keywords [oneOf ["module", "host"]])]]),
        ("children", keywords [kind .array, items (named "file_item")])]]]]

/-- An item of a file: variables and arrays have names, a type and legal modes, types have a name. -/
def itemSchema : Schema :=
  keywords [allOf [named "node",
    whenTag (oneOf ["variable", "array"]) [required ["attributes"],
      properties [
        ("attributes", keywords [required ["local_name", "standard_name", "type"],
          properties [
            ("allocatable",
              keywords [oneOf ["none", "target", "parameter", "allocatable", "pointer"]]),
            ("access", keywords [oneOf ["public", "private", "protected"]])]])]],
    whenTag (exactly "ddt") [required ["attributes"],
      properties [("attributes", keywords [required ["type"]])]]]]

/-- The whole document: a `registry` with a name and a version, made of sections. -/
def registrySchema : Document where
  definitions := [("node", nodeSchema), ("file", fileSchema), ("file_item", itemSchema)]
  root := keywords [allOf [named "node",
    keywords [properties [
      ("tag", keywords [exactly "registry"]),
      ("attributes", keywords [required ["name", "version"],
        properties [("version", keywords [kind .string, pattern versionPattern])]]),
      ("children", keywords [kind .array, items (named "file")])]]]]

end FieldRegistry.Schema
