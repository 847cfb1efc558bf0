import FieldRegistry.Text.Blank
import FieldRegistry.Text.Decimal

/-!
Versions of the registry format.
-/

namespace FieldRegistry

structure Version where
  major : UInt32
  minor : UInt32
deriving DecidableEq

namespace Version

/-- Two numbers of 32 bits with a point between them, in any white space. -/
def parse? (text : String) : Option Version :=
  match Text.splitFirst '.' (Text.trim text) with
  | none => none
  | some (major, minor) =>
    match Text.readBelow (Nat.pow 2 32) major, Text.readBelow (Nat.pow 2 32) minor with
    | some m, some n => some ⟨m.toUInt32, n.toUInt32⟩
    | _, _ => none

def text (v : Version) : String :=
  Text.decimal v.major.toNat ++ "." ++ Text.decimal v.minor.toNat

/-- The file name of the schema for a version. -/
def schemaFileName (v : Version) : String :=
  "registry_v" ++ Text.decimal v.major.toNat ++ "_" ++ Text.decimal v.minor.toNat ++ ".schema.json"

end Version

end FieldRegistry
