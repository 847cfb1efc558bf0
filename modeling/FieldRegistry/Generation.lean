import FieldRegistry.Compilation
import FieldRegistry.Disk.Basic
import FieldRegistry.Disk.Path
import FieldRegistry.Document.Registry

/-!
Generation of files from a registry file: the document is read, held to the schema of its version
and compiled as a whole before the first file is written.
-/

namespace FieldRegistry

/-- Why a run ends without its files. -/
inductive Failure where
  | document (fault : DocumentFault)
  | registry (fault : Fault)
  | outputDirectory (path : String) (cause : Disk.Cause)
  | outputFile (path : String) (cause : Disk.Cause)
  | noWorkingDirectory (cause : Disk.Cause)

namespace Failure

/-- Failures of the document have a diagnostic, those of the disk do not. -/
def diagnostic? (failure : Failure) (file : String) : Option Diagnostic :=
  match failure with
  | document fault => some (fault.diagnostic file)
  | registry fault => some (fault.diagnostic file)
  | outputDirectory .. | outputFile .. | noWorkingDirectory _ => none

def message : Failure → String
  | document fault => fault.message
  | registry fault => fault.message
  | outputDirectory path cause => "Failed to create output directory " ++ path ++ ": " ++ cause.text
  | outputFile path cause => "Failed to write " ++ path ++ ": " ++ cause.text
  | noWorkingDirectory cause => "Failed to read current directory: " ++ cause.text

end Failure

/-- How a run ends that does not fail. -/
inductive Verdict where
  | written
  /-- The document does not fit its schema, and nothing was written. -/
  | invalid
deriving DecidableEq

structure Generation where
  dycore : String
  /-- The settings as one text. -/
  settings : String
  outputDirectory : String
  style : Style := {}
  /-- Directories that are searched for schemas before the one of the registry file. -/
  schemaDirectories : List String := []
  /-- An invalid document is a failure. -/
  refuseInvalid : Bool := false
  /-- What is done with the value of a schema file. -/
  validator : Schema.Validator

namespace Generation

variable {m : Type → Type} [Monad m] [Disk m] [MonadLiftT Logged m]

/-- Writes messages on the way. -/
def journal {ε α : Type} (x : Logged α) : ExceptT ε m α := ExceptT.lift (liftM x)

/-- Takes over a result with its messages. -/
def ofChecked {ε α : Type} (report : ε → Failure) (x : Checked ε α) : ExceptT Failure m α := do
  match ← journal x.run with
  | .ok value => return value
  | .error fault => throw (report fault)

/-- Reads the registry file at a path. -/
def readDocument (path : String) : ExceptT Failure m RegistryDocument := do
  journal (Logged.info ("Reading registry from " ++ path))
  match ← (Disk.read path : m _) with
  | .error cause => throw (.document (.unreadable path cause.text))
  | .ok text => ofChecked .document (RegistryDocument.parse path text)

/-- The schema file for a version in the first of some directories that has one. -/
def schemaFile? (version : Version) : List String → ExceptT Failure m (Option String)
  | [] => return none
  | directory :: others => do
    journal (Logged.debug ("Looking for registry schema in '" ++ directory ++ "'"))
    let path := Path.below directory version.schemaFileName
    if ← (Disk.isFile path : m _) then return some path else schemaFile? version others

/-- Reads the schema for a version from a file. -/
def readSchema (run : Generation) (version : Version) (path : String) :
    ExceptT Failure m Schema.Check := do
  journal (Logged.debug ("Using registry schema " ++ path))
  match ← (Disk.read path : m _) with
  | .error cause => throw (.document (.unreadable path cause.text))
  | .ok text =>
    match (Json.parse text).toOption.bind run.validator with
    | some check => return check
    | none => throw (.document (.unusableSchema version))

/-- The schema for a version: from one of the directories, else the one that is built in. -/
def schemaFor (run : Generation) (version : Version) (directories : List String) :
    ExceptT Failure m Schema.Check := do
  match ← schemaFile? version directories with
  | some path => run.readSchema version path
  | none =>
    match Schema.builtIn? version with
    | some schema => return schema.violations
    | none => throw (.document (.unsupportedVersion version))

/-- What the schema says against a document. The directory of the registry file is searched last. -/
def violations (run : Generation) (document : RegistryDocument) :
    ExceptT Failure m (List String) := do
  let check ← run.schemaFor document.version
    (run.schemaDirectories ++ (Path.parent? document.path).toList)
  return Schema.report (check document.raw)

/-- The files for a registry, in the order in which they are written. -/
def outputs (run : Generation) (root : Node) : Checked Fault (List Output) :=
  let settings := Settings.parse run.settings
  ExceptT.mk do
    settings.forM fun (key, value) =>
      Logged.debug ("Registry configuration item " ++ key ++ " = " ++ value)
    let files := do
      Compilation.compile root
      Compilation.generate run.style
    return (← files.perform (.start run.dycore settings)).1

/-- Writes one file. -/
def writeOutput (directory : String) (output : Output) : ExceptT Failure m Unit := do
  let path := Path.below directory output.fileName
  journal (Logged.info ("Writing registry file, " ++ path))
  match ← (Disk.write path output.contents : m _) with
  | .ok () => return ()
  | .error cause => throw (.outputFile path cause)

/-- Makes the directory and writes the files into it. -/
def writeOutputs (directory : String) (outputs : List Output) : ExceptT Failure m Unit := do
  match ← (Disk.makeDirectories directory : m _) with
  | .error cause => throw (.outputDirectory directory cause)
  | .ok () => outputs.forM (writeOutput directory)

/-- All that is found out before the first file is written: the files, or the messages of the
schema. -/
def prepare (run : Generation) (path : String) :
    ExceptT Failure m (Except (List String) (List Output)) := do
  let document ← readDocument path
  let messages ← run.violations document
  if messages.isEmpty then
    journal (Logged.debug ("Parsing registry, " ++ document.name))
    return .ok (← ofChecked .registry (run.outputs document.root))
  else if run.refuseInvalid then throw (.document (.invalid path messages))
  else return .error messages

/-- Generates the files for the registry file at a path. -/
def perform (run : Generation) (path : String) : ExceptT Failure m Verdict := do
  match ← run.prepare path with
  | .ok outputs =>
    writeOutputs run.outputDirectory outputs
    return .written
  | .error messages =>
    journal (Logged.write .error
      ("Invalid registry file, " ++ path ++ "\n" ++ Text.join "\n" messages))
    return .invalid

end Generation

end FieldRegistry
