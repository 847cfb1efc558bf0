import FieldRegistry.FileUnit

/-!
Tables of the names that variables may have in files with initial conditions.
-/

namespace FieldRegistry

/-- A standard name with its names in files. -/
structure NameEntry where
  standardName : String
  aliases : List String
deriving DecidableEq

structure NameTable where
  entries : List NameEntry
deriving DecidableEq

namespace NameTable

/-- What may have an entry: members of derived types, variables of the scope, and then the elements of
all of these. -/
def candidates (unit : FileUnit) (catalog : Catalog) (aggregates : List Aggregate) :
    List Quantity :=
  let candidates := aggregates.flatMap catalog.flatten ++ unit.dictionary.declared
  candidates.map (·.toQuantity) ++ candidates.flatMap fun v => v.elements.map (·.toQuantity)

/-- The entry of a quantity with names in files. -/
def entryOf? (q : Quantity) : Option NameEntry :=
  q.inputNames.map fun aliases => ⟨q.standardName, aliases⟩

/-- The entries of some candidates; of equal standard names the first counts. -/
def entriesOf (candidates : List Quantity) : List NameEntry :=
  Layout.firstByKey (fun entry => Text.lower entry.standardName) []
    (candidates.filterMap entryOf?)

/-- The length of the longest standard name, in bytes. -/
def standardNameLength (table : NameTable) : Nat :=
  (table.entries.map (·.standardName.utf8ByteSize)).foldr max 0

/-- The length of the longest name in files, in bytes. -/
def aliasLength (table : NameTable) : Nat :=
  (table.entries.flatMap fun entry => entry.aliases.map String.utf8ByteSize).foldr max 0

/-- The greatest number of names in files. -/
def maxAliases (table : NameTable) : Nat := (table.entries.map (·.aliases.length)).foldr max 0

def cell (text : String) (width : Nat) : String := "'" ++ Layout.padRight text width ++ "'"

def standardNameCells (table : NameTable) : List String :=
  table.entries.map fun entry => cell entry.standardName table.standardNameLength

/-- The names in files of each entry, filled up with blank names. -/
def aliasRows (table : NameTable) : List String :=
  table.entries.map fun entry =>
    Text.join ", " ((List.range table.maxAliases).map fun i =>
      cell ((entry.aliases[i]?).getD "") table.aliasLength)

/-- The table of a file, if anything in it can be read from files. -/
def build (unit : FileUnit) (catalog : Catalog) : Checked Fault (Option NameTable) := do
  let aggregates ← Checked.ofExcept (unit.aggregates catalog)
  let entries := entriesOf (candidates unit catalog aggregates)
  if entries.isEmpty then
    Logged.info ("No IC file input names declared in " ++ unit.name ++
      ", so no input variable name array will be created.")
    return none
  else if entries.all (·.standardName.isEmpty) then
    Logged.info ("No variable standard names were found that contain IC file input names in " ++
      unit.name ++ ", so no input variable name array will be created.")
    return none
  else return some ⟨entries⟩

end NameTable

end FieldRegistry
