import FieldRegistry.Metadata
import FieldRegistry.OrderedMap
import FieldRegistry.SourceModule

/-!
Compilation of a registry: its sections are read in document order against one catalog and one
ranking, then every file gives a metadata text and a source text.
-/

namespace FieldRegistry

/-- Settings from the command line, by first mention. -/
abbrev Settings := List (String × String)

namespace Settings

def readItem (item : String) : String × String :=
  match Text.splitFirst '=' item with
  | some (key, value) => (Text.trim key, Text.trim value)
  | none => (item, "True")

/-- Reads items `key=value` with commas between them; a bare key is true, a repeated one keeps its
place. -/
def parse (text : String) : Settings :=
  let items := ((Text.splitAll ',' text).map Text.trim).filter (!·.isEmpty)
  items.foldl (fun settings item => putEntry (readItem item).1 (readItem item).2 settings) []

end Settings

/-- What the files of one run share. -/
structure Context where
  catalog : Catalog
  ranking : Ranking
  /-- The dynamical core, in lower case. -/
  dycore : String
  settings : Settings

def Context.start (dycore : String) (settings : Settings) : Context :=
  ⟨.initial, .initial, Text.lower dycore, settings⟩

/-- A generated file. -/
structure Output where
  fileName : String
  contents : String
deriving DecidableEq

structure Compilation where
  context : Context
  units : List FileUnit

namespace Compilation

def start (dycore : String) (settings : Settings) : Compilation :=
  ⟨.start dycore settings, []⟩

/-- Runs an action on the catalog of a compilation. -/
def onCatalog {α : Type} (action : Action Fault Catalog α) : Action Fault Compilation α :=
  action.focus (·.context.catalog) fun c catalog =>
    { c with context := { c.context with catalog } }

/-- Runs an action on the ranking of a compilation. -/
def onRanking {α : Type} (action : Action Fault Ranking α) : Action Fault Compilation α :=
  action.focus (·.context.ranking) fun c ranking =>
    { c with context := { c.context with ranking } }

/-- Reads one section. -/
def compileSection (node : Node) : Action Fault Compilation Unit := do
  Logged.info ("Parsing " ++ node.tag ++ ", " ++ node.get "name" ++ ", from registry")
  if node.tag != "file" then throw (.unknownSection node.tag)
  let dycore := (← get).context.dycore
  let unit ← onCatalog (FileUnit.ofNode dycore node)
  modify fun c => { c with units := c.units ++ [unit] }

/-- Reads all sections of a registry. -/
def compile (root : Node) : Action Fault Compilation Unit :=
  root.children.forM compileSection

/-- The two files of a unit. -/
def generateUnit (style : Style) (unit : FileUnit) : Action Fault Compilation (List Output) := do
  let catalog := (← get).context.catalog
  let metadata ← (Checked.ofExcept (Metadata.text unit catalog) : Checked Fault String)
  let source ← onRanking (SourceModule.text unit catalog style)
  return [⟨unit.name ++ ".meta", metadata⟩, ⟨unit.name ++ ".F90", source⟩]

/-- The files of all units. -/
def generate (style : Style) : Action Fault Compilation (List Output) := do
  let outputs ← (← get).units.mapM (generateUnit style)
  return outputs.flatten

end Compilation

end FieldRegistry
