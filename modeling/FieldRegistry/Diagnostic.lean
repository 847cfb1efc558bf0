import FieldRegistry.Json.Writer

/-!
Diagnostics: a coded message with a place, notes and a hint, as text for a terminal and as JSON.
-/

namespace FieldRegistry

/-- A registry file, the section in it and the element in that. -/
structure Location where
  file : String
  scope : Option String := none
  element : Option String := none

structure Diagnostic where
  code : String
  message : String
  location : Location
  notes : List String := []
  help : Option String := none

/-- Escape sequences for a terminal. -/
inductive Paint where
  | redBold
  | bold
  | cyanBold
  | cyan
  | greenBold

namespace Paint

def start : Paint → List Char
  | redBold => '\x1b' :: "[1;31m".toList
  | bold => '\x1b' :: "[1m".toList
  | cyanBold => '\x1b' :: "[1;36m".toList
  | cyan => '\x1b' :: "[36m".toList
  | greenBold => '\x1b' :: "[1;32m".toList

/-- Ends every paint. -/
def reset : List Char := '\x1b' :: "[0m".toList

/-- Starts a paint again after each reset inside the text. -/
def renew (sequence : List Char) : List Char → List Char
  | '\x1b' :: '[' :: '0' :: 'm' :: rest =>
    '\x1b' :: '[' :: '0' :: 'm' :: (sequence ++ renew sequence rest)
  | c :: rest => c :: renew sequence rest
  | [] => []

/-- The text in this paint, unchanged where colours are off. -/
def apply (paint : Paint) (colored : Bool) (text : String) : String :=
  if colored then String.ofList (paint.start ++ renew paint.start text.toList ++ reset) else text

end Paint

def Location.text (location : Location) : String :=
  location.file ++ (location.scope.elim "" fun scope => " [" ++ scope ++ "]") ++
    (location.element.elim "" fun element => " `" ++ element ++ "`")

def Location.json (location : Location) : Json :=
  .object ([("file", .string location.file)] ++
    (location.scope.elim [] fun scope => [("scope", .string scope)]) ++
    (location.element.elim [] fun element => [("element", .string element)]))

namespace Diagnostic

/-- The text for a terminal: a headline, the place, the notes, the hint. -/
def text (d : Diagnostic) (colored : Bool) : String :=
  Paint.redBold.apply colored "error" ++ "[" ++ d.code ++ "]: " ++
    Paint.bold.apply colored d.message ++ "\n " ++
    Paint.cyanBold.apply colored "-->" ++ " " ++ d.location.text ++ "\n" ++
    String.join (d.notes.map fun note =>
      " " ++ Paint.cyanBold.apply colored "=" ++ " " ++ Paint.cyan.apply colored note ++ "\n") ++
    (d.help.elim "" fun help =>
      " " ++ Paint.greenBold.apply colored "help:" ++ " " ++ help ++ "\n")

def json (d : Diagnostic) : Json :=
  .object ([("level", .string "error"), ("code", .string d.code), ("message", .string d.message),
      ("location", d.location.json)] ++
    (if d.notes.isEmpty then [] else [("notes", .array (d.notes.map .string))]) ++
    (d.help.elim [] fun help => [("help", .string help)]))

/-- The report of some diagnostics as JSON text. -/
def reportText (ds : List Diagnostic) : String :=
  (Json.object [("diagnostics", .array (ds.map json))]).text

/-- The line that counts the diagnostics, nothing when there are none. -/
def summary (ds : List Diagnostic) (colored : Bool) : String :=
  if ds.isEmpty then ""
  else Paint.redBold.apply colored "error" ++ ": " ++ Text.decimal ds.length ++ " error" ++
    (if ds.length == 1 then "" else "s") ++ " emitted\n"

end Diagnostic

end FieldRegistry
