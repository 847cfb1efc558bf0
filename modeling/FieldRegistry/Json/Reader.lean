import FieldRegistry.Json.Basic
import FieldRegistry.Text.Decimal

/-!
Reading JSON text. A reader takes the characters that are left and returns a value with the
characters after it. Of several flaws the first in the text is reported.
-/

namespace FieldRegistry.Json

abbrev Reader (α : Type) := List Char → Except Flaw (α × List Char)

/-- What a reader insists on beyond the grammar. -/
structure Policy where
  /-- Escaped surrogates must come in pairs. -/
  paired : Bool
  /-- Numbers must be finite doubles. -/
  finite : Bool
  /-- The flaw of a text that ends inside a number. -/
  endedNumber : Flaw

/-- For values that are kept. -/
def Policy.strict : Policy := ⟨true, true, .ended⟩

/-- For values that are only passed over. -/
def Policy.lenient : Policy := ⟨false, false, .malformed⟩

def isSpace (c : Char) : Bool := c == ' ' || c == '\n' || c == '\t' || c == '\r'

def skipSpace (cs : List Char) : List Char := cs.dropWhile isSpace

/-- Takes the rest of a keyword. -/
def expectWord : List Char → List Char → Except Flaw (List Char)
  | [], cs => .ok cs
  | _ :: _, [] => .error .ended
  | w :: ws, c :: cs => if w == c then expectWord ws cs else .error .malformed

/-! ## Strings -/

def hexValue? (c : Char) : Option Nat :=
  if '0' ≤ c && c ≤ '9' then some (c.toNat - '0'.toNat)
  else if 'a' ≤ c && c ≤ 'f' then some (c.toNat - 'a'.toNat + 10)
  else if 'A' ≤ c && c ≤ 'F' then some (c.toNat - 'A'.toNat + 10)
  else none

/-- Where a reader stands inside a string. `high` is a first surrogate that waits for its second. -/
inductive StringState where
  | plain
  | escape
  | hex (missing : Nat) (code : Nat) (high : Option Nat)
  | pairBackslash (high : Nat)
  | pairLetter (high : Nat)

def isHighSurrogate (n : Nat) : Bool := 0xD800 ≤ n && n ≤ 0xDBFF

def isLowSurrogate (n : Nat) : Bool := 0xDC00 ≤ n && n ≤ 0xDFFF

/-- The state after a complete escape by number, with the character it gives. -/
def closeHex (policy : Policy) (code : Nat) :
    Option Nat → Except Flaw (StringState × List Char)
  | none =>
    if !policy.paired then .ok (.plain, [Char.ofNat code])
    else if isLowSurrogate code then .error .malformed
    else if isHighSurrogate code then .ok (.pairBackslash code, [])
    else .ok (.plain, [Char.ofNat code])
  | some high =>
    if isLowSurrogate code then
      .ok (.plain, [Char.ofNat (0x10000 + (high - 0xD800) * 0x400 + (code - 0xDC00))])
    else .error .malformed

def simpleEscape? (c : Char) : Option Char :=
  if c == '"' || c == '\\' || c == '/' then some c
  else if c == 'b' then some (Char.ofNat 8)
  else if c == 'f' then some (Char.ofNat 12)
  else if c == 'n' then some '\n'
  else if c == 'r' then some '\r'
  else if c == 't' then some '\t'
  else none

/-- The number of bytes of a text in UTF-8. -/
def byteLength (cs : List Char) : Nat := (cs.map Char.utf8Size).foldr (· + ·) 0

/-- The characters of a string up to its closing quote. -/
def readChars (policy : Policy) : StringState → List Char → Except Flaw (List Char × List Char)
  | _, [] => .error .ended
  | .plain, c :: cs =>
    if c == '"' then .ok ([], cs)
    else if c == '\\' then readChars policy .escape cs
    else if c.toNat < 0x20 then .error .malformed
    else (readChars policy .plain cs).map fun (out, rest) => (c :: out, rest)
  | .escape, c :: cs =>
    if c == 'u' then readChars policy (.hex 4 0 none) cs
    else match simpleEscape? c with
      | some d => (readChars policy .plain cs).map fun (out, rest) => (d :: out, rest)
      | none => .error .malformed
  | .hex missing code high, c :: cs =>
    match hexValue? c with
    | none => .error (if byteLength (c :: cs) < missing then .ended else .malformed)
    | some d =>
      if missing ≤ 1 then
        match closeHex policy (16 * code + d) high with
        | .error flaw => .error flaw
        | .ok (state, given) =>
          (readChars policy state cs).map fun (out, rest) => (given ++ out, rest)
      else readChars policy (.hex (missing - 1) (16 * code + d) high) cs
  | .pairBackslash high, c :: cs =>
    if c == '\\' then readChars policy (.pairLetter high) cs else .error .malformed
  | .pairLetter high, c :: cs =>
    if c == 'u' then readChars policy (.hex 4 0 (some high)) cs else .error .malformed

/-- A string whose opening quote has been taken. -/
def readString (policy : Policy) : Reader String := fun cs =>
  (readChars policy .plain cs).map fun (out, rest) => (String.ofList out, rest)

/-! ## Numbers -/

/-- The greatest integer of 64 bits. -/
def maxNatural : Nat := Nat.pow 2 64 - 1

/-- Collects digits into a significand of 64 bits; the second part counts the digits left out. -/
def foldDigits (start : Nat × Nat) (ds : List Char) : Nat × Nat :=
  ds.foldl (fun (n, dropped) c =>
    if dropped == 0 && 10 * n + Text.digitValue c ≤ maxNatural
    then (10 * n + Text.digitValue c, 0) else (n, dropped + 1)) start

def powerOfTen (n : Nat) : Float := Float.ofScientific 1 false n

/-- Divides by ten to the power of `exponent` in steps that a double can hold. -/
def scaleDown : Nat → Float → Nat → Float
  | 0, x, _ => x
  | fuel + 1, x, exponent =>
    if exponent ≤ 308 then x / powerOfTen exponent
    else if x == 0.0 then x
    else scaleDown fuel (x / powerOfTen 308) (exponent - 308)

/-- The double for `significand * 10 ^ exponent`, nothing when it is too large. -/
def ofParts? (significand : Nat) (exponent : Int) : Option Float :=
  let x := significand.toUInt64.toFloat
  if 0 ≤ exponent then
    if exponent ≤ 308 then
      let y := x * powerOfTen exponent.toNat
      if y.isInf then none else some y
    else if x == 0.0 then some x else none
  else some (scaleDown ((-exponent).toNat / 308 + 1) x (-exponent).toNat)

def floatNumber (policy : Policy) (negative : Bool) (significand : Nat) (exponent : Int) :
    Except Flaw Number :=
  match ofParts? significand exponent with
  | some x => .ok (.float (if negative then -x else x))
  | none => if policy.finite then .error .malformed else .ok (.float 0.0)

/-- An integer without fraction and exponent. Zero with a minus sign and what does not fit into 64
bits are doubles. -/
def integerNumber (negative : Bool) (n : Nat) : Number :=
  if !negative then .natural n
  else if 0 < n && n ≤ Nat.pow 2 63 then .negative n
  else .float (-(n.toUInt64.toFloat))

/-- The exponent after its mark. -/
def readExponent (policy : Policy) (negative : Bool) (significand : Nat) (exponent : Int) :
    Reader Number := fun cs =>
  let (down, digits) := match cs with
    | '-' :: rest => (true, rest)
    | '+' :: rest => (false, rest)
    | _ => (false, cs)
  match digits with
  | [] => .error policy.endedNumber
  | c :: _ =>
    if Text.isDigit c then
      let power : Int := Text.digitsValue (digits.takeWhile Text.isDigit)
      (floatNumber policy negative significand (if down then exponent - power else exponent + power)).map
        (·, digits.dropWhile Text.isDigit)
    else .error .malformed

/-- What follows the digits of a float: an exponent or the end of the number. -/
def readFloatTail (policy : Policy) (negative : Bool) (significand : Nat) (exponent : Int) :
    Reader Number := fun cs =>
  match cs with
  | 'e' :: rest | 'E' :: rest => readExponent policy negative significand exponent rest
  | _ => (floatNumber policy negative significand exponent).map (·, cs)

/-- The fraction after its point. `dropped` digits before the point are not in the significand. -/
def readFraction (policy : Policy) (negative : Bool) (significand dropped : Nat) :
    Reader Number := fun cs =>
  match cs with
  | [] => .error policy.endedNumber
  | c :: _ =>
    if Text.isDigit c then
      let digits := cs.takeWhile Text.isDigit
      let (all, left) := foldDigits (significand, 0) digits
      readFloatTail policy negative all ((dropped : Int) - (digits.length - left : Nat))
        (cs.dropWhile Text.isDigit)
    else .error .malformed

/-- A number whose minus sign, if any, has been taken. -/
def readNumber (policy : Policy) (negative : Bool) : Reader Number := fun cs =>
  match cs with
  | [] => .error policy.endedNumber
  | c :: rest =>
    if !Text.isDigit c then .error .malformed
    else if c == '0' && (rest.head?.map Text.isDigit).getD false then .error .malformed
    else
      let (n, dropped) := foldDigits (0, 0) (cs.takeWhile Text.isDigit)
      match cs.dropWhile Text.isDigit with
      | '.' :: after => readFraction policy negative n dropped after
      | after =>
        if dropped == 0 && !(after.head? == some 'e' || after.head? == some 'E') then
          .ok (integerNumber negative n, after)
        else readFloatTail policy negative n dropped after

/-! ## Arrays and objects -/

/-- Passes a state through the items after the first one, up to the closing mark. Every round takes a
comma. -/
def foldMore {σ : Type} (close : Char) (item : σ → Reader σ) : Nat → σ → Reader σ
  | 0, _, _ => .error .ended
  | fuel + 1, s, cs =>
    match skipSpace cs with
    | [] => .error .ended
    | c :: rest =>
      if c == close then .ok (s, rest)
      else if c != ',' then .error .malformed
      else match skipSpace rest with
        | [] => .error .ended
        | d :: more =>
          if d == close then .error .malformed
          else match item s (d :: more) with
            | .error flaw => .error flaw
            | .ok (t, after) => foldMore close item fuel t after

/-- Passes a state through items with commas between them, up to the closing mark. -/
def foldSequence {σ : Type} (close : Char) (item : σ → Reader σ) (s : σ) : Reader σ := fun cs =>
  match skipSpace cs with
  | [] => .error .ended
  | c :: rest =>
    if c == close then .ok (s, rest)
    else match item s (c :: rest) with
      | .error flaw => .error flaw
      | .ok (t, after) => foldMore close item (after.length + 1) t after

/-- The items of a sequence. -/
def readSequence {α : Type} (close : Char) (item : Reader α) : Reader (List α) := fun cs =>
  (foldSequence close (fun done cs => (item cs).map fun (value, rest) => (value :: done, rest)) []
    cs).map fun (done, rest) => (done.reverse, rest)

/-- Takes the colon between a name and its value. -/
def readColon : Reader Unit := fun cs =>
  match skipSpace cs with
  | [] => .error .ended
  | c :: rest => if c == ':' then .ok ((), rest) else .error .malformed

/-- The name of a member. -/
def readName (policy : Policy) : Reader String := fun cs =>
  match cs with
  | [] => .error .ended
  | c :: rest => if c == '"' then readString policy rest else .error .malformed

/-- A member of an object. -/
def readMember (policy : Policy) (value : Reader Json) : Reader (String × Json) := fun cs => do
  let (name, rest) ← readName policy cs
  let ((), rest) ← readColon rest
  let (value, rest) ← value rest
  return ((name, value), rest)

/-- A value whose arrays and objects hold values read by `inner`. -/
def readLayer (policy : Policy) (inner : Option (Reader Json)) : Reader Json := fun cs =>
  match skipSpace cs with
  | [] => .error .ended
  | c :: rest =>
    if c == 'n' then (expectWord "ull".toList rest).map (.null, ·)
    else if c == 't' then (expectWord "rue".toList rest).map (.bool true, ·)
    else if c == 'f' then (expectWord "alse".toList rest).map (.bool false, ·)
    else if c == '"' then (readString policy rest).map fun (s, after) => (.string s, after)
    else if c == '-' then (readNumber policy true rest).map fun (n, after) => (.number n, after)
    else if Text.isDigit c then
      (readNumber policy false (c :: rest)).map fun (n, after) => (.number n, after)
    else match inner with
      | none => .error .malformed
      | some inner =>
        if c == '[' then
          (readSequence ']' inner rest).map fun (items, after) => (.array items, after)
        else if c == '\x7b' then
          (readSequence '\x7d' (readMember policy inner) rest).map fun (members, after) =>
            (ofMembers members, after)
        else .error .malformed

/-- A value with at most `depth` arrays and objects around each other. -/
def readValue (policy : Policy) : Nat → Reader Json
  | 0, cs => readLayer policy none cs
  | depth + 1, cs => readLayer policy (some (readValue policy depth)) cs

/-- Nothing but white space may follow a value. -/
def finish {α : Type} : α × List Char → Except Flaw α
  | (value, rest) => if (skipSpace rest).isEmpty then .ok value else .error .malformed

/-- The deepest nesting that is read. -/
def maxDepth : Nat := 127

/-- Reads a text that holds one value. -/
def parse (text : String) : Except Flaw Json :=
  (readValue .strict maxDepth text.toList).bind finish

end FieldRegistry.Json
