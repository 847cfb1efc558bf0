import FieldRegistry.Disk.Basic
import FieldRegistry.Disk.Path
import FieldRegistry.Layout.StyleReader

/-!
Style files: a style is taken from the nearest directory that has a style file.
-/

namespace FieldRegistry

inductive StyleFault where
  | unreadable (cause : Disk.Cause)
  | malformed (flaw : Json.Flaw)
deriving DecidableEq

namespace Style

variable {m : Type → Type} [Monad m] [Disk m]

/-- The name of a style file. -/
def fileName : String := "regcfmt.json"

/-- Reads the style file at a path. -/
def load (path : String) : ExceptT StyleFault m Style := do
  match ← (Disk.read path : m _) with
  | .error cause => throw (.unreadable cause)
  | .ok text =>
    match parse text with
    | .ok style => return style
    | .error flaw => throw (.malformed flaw)

/-- The style of the first of some directories that has a style file. -/
def findAmong : List String → ExceptT StyleFault m Style
  | [] => return {}
  | directory :: others => do
    let path := Path.below directory fileName
    if ← (Disk.holds path : m _) then load path else findAmong others

/-- The style for a directory: its own, or that of the nearest directory above it. -/
def find (directory : String) : ExceptT StyleFault m Style :=
  findAmong (directory :: Path.ancestors directory)

end Style

end FieldRegistry
