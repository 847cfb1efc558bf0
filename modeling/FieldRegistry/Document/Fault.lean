import FieldRegistry.Diagnostic
import FieldRegistry.Document.Version

/-!
What can be wrong with a document before its contents are compiled.
-/

namespace FieldRegistry

inductive DocumentFault where
  | unreadable (path cause : String)
  | notJson (path : String) (flaw : Json.Flaw)
  | missingVersion (tag : String)
  | malformedVersion (text : String)
  | unsupportedVersion (version : Version)
  | unusableSchema (version : Version)
  | invalid (path : String) (messages : List String)
deriving DecidableEq

def Json.Flaw.text : Json.Flaw → String
  | .ended => "the text ends inside a value"
  | .malformed => "the text is malformed"
  | .unfit reason => reason

namespace DocumentFault

def message : DocumentFault → String
  | unreadable path cause => "cannot read registry file " ++ path ++ ": " ++ cause
  | notJson path flaw => "registry file " ++ path ++ " is not valid JSON: " ++ flaw.text
  | missingVersion tag => "registry root '" ++ tag ++ "' has no version attribute"
  | malformedVersion text => "malformed registry version, '" ++ text ++ "'"
  | unsupportedVersion version => "no registry schema found for version " ++ version.text
  | unusableSchema version =>
    "registry schema for version " ++ version.text ++ " does not compile"
  | invalid path _ => "invalid registry file, " ++ path

def code : DocumentFault → String
  | unreadable .. => "R0001"
  | notJson .. => "R0002"
  | missingVersion _ | malformedVersion _ => "R0003"
  | unsupportedVersion _ | unusableSchema _ => "R0004"
  | invalid .. => "R0005"

/-- Each message about an invalid document is a note. -/
def notes : DocumentFault → List String
  | invalid _ messages => messages
  | _ => []

def diagnostic (fault : DocumentFault) (file : String) : Diagnostic :=
  { code := fault.code, message := fault.message, location := { file }, notes := fault.notes }

end DocumentFault

end FieldRegistry
