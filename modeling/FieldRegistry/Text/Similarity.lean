import FieldRegistry.Text.Case

/-!
Closeness of names by the Jaro-Winkler measure, in double arithmetic, and the closest of some
candidates.
-/

namespace FieldRegistry.Text

/-- Marks the first free place, between `low` and `high`, that holds `c`. -/
def takePlace (c : Char) (low high : Nat) : Nat → List (Char × Bool) → Option (List (Char × Bool))
  | _, [] => none
  | j, (d, taken) :: rest =>
    if high ≤ j then none
    else if low ≤ j && c == d && !taken then some ((d, true) :: rest)
    else (takePlace c low high (j + 1) rest).map ((d, taken) :: ·)

/-- Matches the characters of one text, from position `i` on, with free places of the other that lie
at most `range` away. The first result holds the matched characters in order. -/
def matchWithin (range : Nat) : Nat → List Char → List (Char × Bool) → List Char × List (Char × Bool)
  | _, [], places => ([], places)
  | i, c :: cs, places =>
    match takePlace c (i - range) (i + range + 1) 0 places with
    | some places' =>
      let (found, final) := matchWithin range (i + 1) cs places'
      (c :: found, final)
    | none => matchWithin range (i + 1) cs places

/-- The Jaro measure of two texts. -/
def jaro (a b : List Char) : Float :=
  if a.isEmpty && b.isEmpty then 1.0
  else if a.isEmpty || b.isEmpty then 0.0
  else
    let range := max a.length b.length / 2 - 1
    let (found, places) := matchWithin range 0 a (b.map (·, false))
    let matched := (places.filter (·.2)).map (·.1)
    if found.isEmpty then 0.0
    else
      let swaps := ((found.zip matched).filter fun (c, d) => c != d).length / 2
      let m := found.length.toFloat
      (m / a.length.toFloat + m / b.length.toFloat + (found.length - swaps).toFloat / m) / 3.0

/-- The length of the common start of two texts. -/
def commonStart : List Char → List Char → Nat
  | c :: cs, d :: ds => if c == d then commonStart cs ds + 1 else 0
  | _, _ => 0

/-- The Jaro measure, raised for close texts by their common start of up to four characters. -/
def similarity (a b : List Char) : Float :=
  let score := jaro a b
  if score > 0.7 then
    let start := commonStart (a.take 4) b
    score + 0.1 * start.toFloat * (1.0 - score)
  else score

/-- A better score comes first, names of equal score in the order of their characters. -/
def rankedBefore (a b : String × Float) : Bool :=
  if a.2 > b.2 then true else if b.2 > a.2 then false else decide (a.1 ≤ b.1)

/-- At most `limit` candidates that score above `threshold` against `target`, best first. Letter case
does not count. -/
def closest (target : String) (candidates : List String) (threshold : Float) (limit : Nat) :
    List String :=
  let goal := (lower target).toList
  let scored := candidates.map fun name => (name, similarity goal (lower name).toList)
  (((scored.filter fun entry => entry.2 > threshold).mergeSort rankedBefore).take limit).map (·.1)

end FieldRegistry.Text
