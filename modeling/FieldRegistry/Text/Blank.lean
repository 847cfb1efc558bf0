import FieldRegistry.Text.Pieces

/-!
White space in the Unicode sense, and what is cut at it: trimmed texts and words.
-/

namespace FieldRegistry.Text

/-- The characters with the Unicode property White_Space. -/
def isBlank (c : Char) : Bool :=
  let n := c.toNat
  (9 ≤ n && n ≤ 13) || n == 0x20 || n == 0x85 || n == 0xA0 || n == 0x1680 ||
    (0x2000 ≤ n && n ≤ 0x200A) || n == 0x2028 || n == 0x2029 || n == 0x202F || n == 0x205F ||
    n == 0x3000

/-- Drops the longest tail whose characters all satisfy `p`. -/
def dropTailWhile (p : Char → Bool) (s : List Char) : List Char :=
  (s.reverse.dropWhile p).reverse

/-- A text without the white space at its two ends. -/
def trim (s : String) : String :=
  String.ofList (dropTailWhile isBlank (s.toList.dropWhile isBlank))

/-- The trimmed text, or nothing when only white space is there. -/
def trimmed? (s : String) : Option String :=
  let t := trim s
  if t.isEmpty then none else some t

/-- The maximal runs of characters that are not white space. -/
def words (s : String) : List String :=
  ((pieces isBlank s.toList).filter (fun w => !w.isEmpty)).map String.ofList

end FieldRegistry.Text
