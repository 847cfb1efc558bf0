import FieldRegistry.Json.Reader
import FieldRegistry.Layout.Style

/-!
Reading a style from JSON text: an object whose unknown members are passed over, or an array of the
three settings in order. Settings that are left out keep their defaults. The first flaw in the text
is reported.
-/

namespace FieldRegistry.Style

open Json (Flaw Reader skipSpace)

/-- The flaw of a text whose next value is not of the kind asked for: the value's own flaw comes
first. -/
def misfit (wanted : String) (cs : List Char) : Flaw :=
  let unfit := Flaw.unfit ("expected " ++ wanted)
  match cs with
  | '[' :: _ | '\x7b' :: _ => unfit
  | _ => match Json.readLayer .strict none cs with
    | .ok _ => unfit
    | .error flaw => flaw

/-- A number that counts something. -/
def readCount : Reader Nat := fun cs =>
  match skipSpace cs with
  | [] => .error .ended
  | c :: rest =>
    if c == '-' || Text.isDigit c then
      match Json.readLayer .strict none (c :: rest) with
      | .ok (.number (.natural n), after) => .ok (n, after)
      | .ok _ => .error (.unfit "expected a count")
      | .error flaw => .error flaw
    else .error (misfit "a count" (c :: rest))

def readFlag : Reader Bool := fun cs =>
  match skipSpace cs with
  | [] => .error .ended
  | c :: rest =>
    if c == 't' || c == 'f' then
      match Json.readLayer .strict none (c :: rest) with
      | .ok (.bool b, after) => .ok (b, after)
      | .ok _ => .error (.unfit "expected a boolean")
      | .error flaw => .error flaw
    else .error (misfit "a boolean" (c :: rest))

/-- A setting: its name and how its value changes a style. -/
structure Setting where
  name : String
  read : Style → Reader Style

/-- The settings in the order of the array form. -/
def settings : List Setting :=
  [⟨"indent_size", fun style cs =>
      (readCount cs).map fun (n, rest) => ({ style with indentSize := n }, rest)⟩,
   ⟨"sort_imports", fun style cs =>
      (readFlag cs).map fun (b, rest) => ({ style with sortImports := b }, rest)⟩,
   ⟨"separate_blocks", fun style cs =>
      (readFlag cs).map fun (b, rest) => ({ style with separateBlocks := b }, rest)⟩]

/-- Passes over a value of any depth. -/
def skipValue : Reader Unit := fun cs =>
  (Json.readValue .lenient cs.length cs).map fun (_, rest) => ((), rest)

/-- A member of the object form. The state holds the names of the settings that were given. -/
def readMember (state : List String × Style) : Reader (List String × Style) := fun cs => do
  let (name, rest) ← Json.readName .strict cs
  match settings.find? (·.name == name) with
  | none =>
    let ((), rest) ← Json.readColon rest
    let ((), rest) ← skipValue rest
    return (state, rest)
  | some setting =>
    if state.1.contains name then throw (.unfit ("duplicate field `" ++ name ++ "`"))
    let ((), rest) ← Json.readColon rest
    let (style, rest) ← setting.read state.2 rest
    return ((name :: state.1, style), rest)

/-- The array form from one setting on. After the last setting the array must end. -/
def readSlots : List Setting → Bool → Style → Reader Style
  | [], _, style, cs =>
    match skipSpace cs with
    | [] => .error .ended
    | c :: rest => if c == ']' then .ok (style, rest) else .error .malformed
  | setting :: more, isFirst, style, cs =>
    match skipSpace cs with
    | [] => .error .ended
    | c :: rest =>
      if c == ']' then .ok (style, rest)
      else if isFirst then
        match setting.read style (c :: rest) with
        | .error flaw => .error flaw
        | .ok (style, after) => readSlots more false style after
      else if c != ',' then .error .malformed
      else match skipSpace rest with
        | [] => .error .ended
        | d :: after =>
          if d == ']' then .error .malformed
          else match setting.read style (d :: after) with
            | .error flaw => .error flaw
            | .ok (style, after) => readSlots more false style after

/-- A style in either form. -/
def read : Reader Style := fun cs =>
  match skipSpace cs with
  | [] => .error .ended
  | c :: rest =>
    if c == '[' then readSlots settings true {} rest
    else if c == '\x7b' then
      (Json.foldSequence '\x7d' readMember ([], {}) rest).map fun (state, after) =>
        (state.2, after)
    else .error (misfit "a style" (c :: rest))

/-- Reads a text that holds a style. -/
def parse (text : String) : Except Flaw Style :=
  (read text.toList).bind Json.finish

end FieldRegistry.Style
