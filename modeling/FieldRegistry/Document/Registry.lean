import FieldRegistry.Document.Fault
import FieldRegistry.Document.NodeReader
import FieldRegistry.Journal
import FieldRegistry.Json.Reader
import FieldRegistry.Schema.Registry

/-!
Registry documents: a text becomes a tree of elements with a version, and is held to a schema.
-/

namespace FieldRegistry

structure RegistryDocument where
  path : String
  version : Version
  root : Node
  /-- The value that the tree was read from. -/
  raw : Json

namespace RegistryDocument

/-- The version that the root of a document states. -/
def versionOf (root : Node) : Except DocumentFault Version :=
  match root.get? "version" with
  | none => .error (.missingVersion root.tag)
  | some text =>
    match Version.parse? text with
    | some version => .ok version
    | none => .error (.malformedVersion text)

/-- Reads the text of the registry file at `path`. The structure is not checked here. -/
def parse (path text : String) : Checked DocumentFault RegistryDocument := do
  let raw ← Checked.ofExcept ((Json.parse text).mapError (.notJson path))
  let root ← Checked.ofExcept ((Node.ofJson raw).mapError (.notJson path))
  let version ← Checked.ofExcept (versionOf root)
  Logged.debug ("Found registry version, v" ++ version.text)
  return { path, version, root, raw }

/-- The name of the registry. -/
def name (document : RegistryDocument) : String := document.root.get "name"

end RegistryDocument

/-- The schema that is built in for a version. -/
def Schema.builtIn? (version : Version) : Option Schema.Document :=
  if version = ⟨1, 0⟩ then some registrySchema else none

/-- The messages of the built-in schema about a value. -/
def Schema.check (value : Json) (version : Version) : Except DocumentFault (List String) :=
  match builtIn? version with
  | some schema => .ok (schema.messages value)
  | none => .error (.unsupportedVersion version)

end FieldRegistry
