import FieldRegistry.Layout.Page
import FieldRegistry.Text.Case

/-!
Imports of generated modules. Two imports are the same when they differ at most in letter case; the
first spelling is kept.
-/

namespace FieldRegistry.Layout

/-- A symbol taken from another module. -/
structure Import where
  origin : String
  symbol : String
deriving DecidableEq

/-- The elements whose key no earlier element has and `seen` does not hold. -/
def firstByKey {α κ : Type} [BEq κ] (key : α → κ) : List κ → List α → List α
  | _, [] => []
  | seen, a :: rest =>
    if seen.contains (key a) then firstByKey key seen rest
    else a :: firstByKey key (key a :: seen) rest

/-- Drops the elements at the head of a list that have the key of the element before them, and so
on. -/
def dropRepeats {α κ : Type} [BEq κ] (key : α → κ) : α → List α → List α
  | a, [] => [a]
  | a, b :: rest =>
    if key a == key b then dropRepeats key a rest else a :: dropRepeats key b rest

namespace Import

def key (i : Import) : String × String := (Text.lower i.origin, Text.lower i.symbol)

/-- The order of keys, by module and then by symbol. -/
def before (a b : Import) : Bool :=
  a.key.1 < b.key.1 || (a.key.1 == b.key.1 && decide (a.key.2 ≤ b.key.2))

/-- Sorts imports and drops repeats. -/
def sorted (imports : List Import) : List Import :=
  match imports.mergeSort before with
  | [] => []
  | first :: rest => dropRepeats key first rest

/-- Drops repeats and keeps the order. -/
def distinct (imports : List Import) : List Import := firstByKey key [] imports

/-- One statement for each import, the `only:` parts under each other. -/
def lines (imports : List Import) (depth : Nat) : List Line :=
  let width := columnWidth (imports.map (·.origin))
  imports.map fun i =>
    ⟨depth, "use " ++ padRight (i.origin ++ ",") (width + 1) ++ " only: " ++ i.symbol⟩

end Import

end FieldRegistry.Layout
