import FieldRegistry.Text.CaseTable

/-!
Full case mapping of texts. Lower case is decided character by character, except that a capital
sigma at the end of a word becomes the final form.
-/

namespace FieldRegistry.Text

/-- The image of a code point under the first row that holds it. -/
def rowImage? (rows : List (Nat × Nat × Nat × Nat)) (n : Nat) : Option Nat :=
  rows.findSome? fun (first, last, step, image) =>
    if first ≤ n && n ≤ last && (n - first) % step == 0 then some (image + (n - first)) else none

def inRanges (ranges : List (Nat × Nat)) (c : Char) : Bool :=
  ranges.any fun (first, last) => first ≤ c.toNat && c.toNat ≤ last

def isCased (c : Char) : Bool := inRanges casedRanges c

def isCaseIgnorable (c : Char) : Bool := inRanges ignorableRanges c

/-- The capital I with a dot above keeps its dot as a mark of its own. -/
def dottedCapitalI : Char := Char.ofNat 0x130

def capitalSigma : Char := Char.ofNat 0x3A3

/-- Lower case of one character where its neighbours do not matter. -/
def lowerChar (c : Char) : List Char :=
  if c.toNat < 0x80 then [c.toLower]
  else if c == dottedCapitalI then ['i', Char.ofNat 0x307]
  else match rowImage? lowerRows c.toNat with
    | some n => [Char.ofNat n]
    | none => [c]

/-- Upper case of one character. -/
def upperChar (c : Char) : List Char :=
  if c.toNat < 0x80 then [c.toUpper]
  else match upperStrings.find? (·.1 == c.toNat) with
    | some (_, ns) => ns.map Char.ofNat
    | none => match rowImage? upperRows c.toNat with
      | some n => [Char.ofNat n]
      | none => [c]

/-- Whether the next character that counts is a cased one. -/
def meetsCased (s : List Char) : Bool :=
  match s.dropWhile isCaseIgnorable with
  | [] => false
  | c :: _ => isCased c

/-- Lower case of a capital sigma between the reversed text `before` it and the text `after` it. -/
def lowerSigma (before after : List Char) : Char :=
  if meetsCased before && !meetsCased after then Char.ofNat 0x3C2 else Char.ofNat 0x3C3

/-- Lower case of a text that follows the reversed text `before`. -/
def lowerFrom (before : List Char) : List Char → List Char
  | [] => []
  | c :: cs =>
    (if c == capitalSigma then [lowerSigma before cs] else lowerChar c) ++ lowerFrom (c :: before) cs

/-- Lower case of a text. -/
def lower (s : String) : String :=
  String.ofList (lowerFrom [] s.toList)

/-- Two texts that differ at most in letter case. -/
def sameLetters (s t : String) : Bool := lower s == lower t

end FieldRegistry.Text
