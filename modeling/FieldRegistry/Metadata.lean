import FieldRegistry.FileUnit

/-!
Metadata of a file: a table for each of its derived types and one for the scope itself. Private
variables are not described.
-/

namespace FieldRegistry.Metadata

open Layout (Line)

/-- What is said about a variable or an element. -/
structure Entry where
  quantity : Quantity
  isProtected : Bool
deriving DecidableEq

structure Table where
  name : String
  kind : String
  entries : List Entry
deriving DecidableEq

/-- A variable followed by its elements. -/
def entriesOf (v : Variable) : List Entry :=
  if v.access == .inModule then []
  else ⟨v.toQuantity, v.storage == .parameter || v.isProtected⟩ ::
    v.elements.map fun e => ⟨e.toQuantity, false⟩

def tables (unit : FileUnit) (catalog : Catalog) : Except Fault (List Table) := do
  let aggregates ← unit.aggregates catalog
  return aggregates.map (fun a => ⟨a.name, "ddt", a.members.flatMap entriesOf⟩) ++
    [⟨unit.dictionary.name, unit.dictionary.kind, unit.dictionary.declared.flatMap entriesOf⟩]

/-- The type of a quantity; only intrinsic types have a kind. -/
def typeText (q : Quantity) : String :=
  if q.type.isAggregate then "  ddt_type = " ++ q.type.name
  else if q.kind.isEmpty then "  type = " ++ q.type.name
  else "  type = " ++ q.type.name ++ " | kind = " ++ q.kind

def Entry.texts (entry : Entry) : List String :=
  let q := entry.quantity
  ["[ " ++ q.localName ++ " ]", "  standard_name = " ++ q.standardName] ++
    (q.longName.elim [] fun longName => ["  long_name = " ++ longName]) ++
    ["  units = " ++ q.units, typeText q, "  dimensions = " ++ q.dimensionText] ++
    (if entry.isProtected then ["  protected = True"] else [])

def Table.texts (table : Table) : List String :=
  ["[ccpp-arg-table]", "  name = " ++ table.name, "  type = " ++ table.kind] ++
    table.entries.flatMap Entry.texts

/-- The text of some tables. -/
def render (tables : List Table) : String :=
  Layout.render ((tables.flatMap Table.texts).map fun text => ⟨0, text⟩) 0

/-- The metadata text of a file. -/
def text (unit : FileUnit) (catalog : Catalog) : Except Fault String :=
  (tables unit catalog).map render

end FieldRegistry.Metadata
