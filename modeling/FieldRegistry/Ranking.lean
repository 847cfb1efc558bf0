import FieldRegistry.OrderedMap

/-!
The order of dimension names in argument lists. The standard names come first; other names follow in
the order in which a run meets them, so that all routines of a run agree.
-/

namespace FieldRegistry

structure Ranking where
  /-- The ranks that were given so far, by name. -/
  ranks : OrderedMap Nat
  /-- The rank of the next new name. -/
  nextRank : Nat

namespace Ranking

/-- Names with a fixed rank. -/
def standardRanks : List (String × Nat) :=
  [("horizontal_dimension", 1), ("vertical_layer_dimension", 2),
   ("vertical_interface_dimension", 3), ("number_of_constituents", 4)]

def initial : Ranking := ⟨⟨standardRanks, by decide⟩, standardRanks.length + 1⟩

/-- The rank of a name, which gets the next one if it has none. -/
def rank (ranking : Ranking) (name : String) : Nat × Ranking :=
  match ranking.ranks.get? name with
  | some rank => (rank, ranking)
  | none =>
    (ranking.nextRank, ⟨ranking.ranks.insert name ranking.nextRank, ranking.nextRank + 1⟩)

/-- Names with their ranks, which new names get in their order here. -/
def rankAll (ranking : Ranking) : List String → List (Nat × String) × Ranking
  | [] => ([], ranking)
  | name :: rest =>
    let (rank, ranking) := ranking.rank name
    let (ranked, ranking) := ranking.rankAll rest
    ((rank, name) :: ranked, ranking)

/-- The order of names with ranks: by rank, then by name. -/
def pairBefore (a b : Nat × String) : Bool := a.1 < b.1 || (a.1 == b.1 && a.2 ≤ b.2)

/-- Names in the order of their ranks. -/
def sort (ranking : Ranking) (names : List String) : List String × Ranking :=
  let (ranked, ranking) := ranking.rankAll names
  ((ranked.mergeSort pairBefore).map (·.2), ranking)

end Ranking

end FieldRegistry
