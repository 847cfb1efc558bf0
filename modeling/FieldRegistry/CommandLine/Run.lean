import FieldRegistry.CommandLine.Arguments
import FieldRegistry.Disk.Tree
import FieldRegistry.Generation
import FieldRegistry.Layout.StyleFile
import FieldRegistry.Text.Control

/-!
Runs of the command: how much of the journal is shown, what is printed, and the exit code.
-/

namespace FieldRegistry

/-- How much of the journal is shown. -/
inductive Verbosity where
  | silent
  | errors
  | progress
  | everything
deriving DecidableEq

namespace Verbosity

def shows : Verbosity → Level → Bool
  | silent, _ => false
  | errors, level => level == .error
  | progress, level => level != .debug
  | everything, _ => true

/-- Reads the name of a level, in letters of any case. -/
def ofText? (text : String) : Option Verbosity :=
  match Text.lower text with
  | "off" => some silent
  | "error" | "warn" => some errors
  | "info" => some progress
  | "debug" | "trace" => some everything
  | _ => none

end Verbosity

def Level.name : Level → String
  | .debug => "DEBUG"
  | .info => "INFO"
  | .error => "ERROR"

/-- A message as it is printed: lines after the first are indented, and nothing in it controls a
terminal. A string that the message opens and does not end takes in the end of the line. -/
def Message.line (message : Message) : String :=
  "[" ++ message.level.name ++ "] " ++
    Text.plain (Text.join "\n    " (Text.splitAll '\n' message.text) ++ "\n")

namespace CommandLine

/-- What a command leaves behind besides files: an exit code and text for the two channels. -/
structure Ending where
  exitCode : Nat
  output : String := ""
  errors : String := ""
deriving DecidableEq

def versionText : String := "regc 0.2.0\n"

def usageText : String := "Usage: regc [OPTIONS] --dycore <DYCORE> --config <CONFIG> <REGISTRY>\n"

def helpText : String :=
  "Registry schema compiler: generates metadata and Fortran source from a registry\n\n" ++
  usageText ++
  "\nArguments:\n" ++
  "  <REGISTRY>  Registry file\n" ++
  "\nOptions:\n" ++
  "      --dycore <DYCORE>       Dycore (EUL, FV, FV3, MPAS, SE, none)\n" ++
  "      --config <CONFIG>       Comma-separated config items (e.g., gravity_waves=True)\n" ++
  "      --output-dir <DIR>      Directory where output files will be written (default: current directory)\n" ++
  "      --indent <INDENT>       Spaces per indent level in generated source (default: regcfmt.json in the output directory, else 3)\n" ++
  "      --schema-path <DIR>     Directory searched for registry schemas (repeatable)\n" ++
  "      --error-on-no-validate  Fail instead of returning 1 when the registry does not validate\n" ++
  "      --debug                 Increase logging\n" ++
  "      --quiet                 Disable logging except for errors\n" ++
  "      --json                  Output diagnostics as JSON\n" ++
  "  -h, --help                  Print help\n" ++
  "  -V, --version               Print version\n"

def UsageFault.ending (fault : UsageFault) : Ending :=
  { exitCode := 2
    errors := "error: " ++ fault.message ++ "\n\n" ++ usageText ++
      "\nFor more information, try '--help'.\n" }

/-- A diagnostic on its own: as JSON for programs, as text for people. -/
def diagnosticEnding (json : Bool) (diagnostic : Diagnostic) : Ending :=
  if json then { exitCode := 1, output := Diagnostic.reportText [diagnostic] ++ "\n" }
  else { exitCode := 1
         errors := diagnostic.text false ++ "\n" ++ Diagnostic.summary [diagnostic] false }

namespace Arguments

/-- How much of the journal is shown: as the environment says, else as the switches say. -/
def verbosity (arguments : Arguments) (environment : Option String) : Verbosity :=
  match environment.bind Verbosity.ofText? with
  | some verbosity => verbosity
  | none =>
    if arguments.switches.contains .debug then .everything
    else if arguments.switches.contains .quiet then .errors
    else .progress

variable {m : Type → Type} [Monad m] [Disk m] [MonadLiftT Logged m]

/-- Where the files go. -/
def outputDirectoryPath (arguments : Arguments) : ExceptT Failure m String := do
  match arguments.outputDirectory with
  | some path => return path
  | none =>
    match ← (Disk.workingDirectory : m _) with
    | .ok path => return path
    | .error cause => throw (.noWorkingDirectory cause)

/-- The style of the files: a stated indent, else the style file of the directory if it is usable. -/
def styleFor (arguments : Arguments) (directory : String) : m Style := do
  match arguments.indent with
  | some indentSize => return { indentSize }
  | none => return (← (Style.find directory : ExceptT StyleFault m Style).run).toOption.getD {}

/-- Generates the files. -/
def generate (arguments : Arguments) (validator : Schema.Validator) :
    ExceptT Failure m Verdict := do
  let outputDirectory ← arguments.outputDirectoryPath
  let style ← ExceptT.lift (arguments.styleFor outputDirectory)
  let run : Generation :=
    { dycore := arguments.dycore
      settings := arguments.config
      outputDirectory
      style
      schemaDirectories := arguments.schemaPaths
      refuseInvalid := arguments.switches.contains .refuseInvalid
      validator }
  run.perform arguments.registry

/-- Generates the files and says how that ended. Failures without a diagnostic go to the journal. -/
def run (arguments : Arguments) (validator : Schema.Validator) : m Ending := do
  match ← (arguments.generate validator : ExceptT Failure m Verdict).run with
  | .ok .written => return { exitCode := 0 }
  | .ok .invalid => return { exitCode := 1 }
  | .error failure =>
    match failure.diagnostic? arguments.registry with
    | some diagnostic =>
      return diagnosticEnding (arguments.switches.contains .json) diagnostic
    | none =>
      liftM (Logged.write .error failure.message)
      return { exitCode := 1 }

end Arguments

/-- Carries out a request. -/
def Request.run {m : Type → Type} [Monad m] [Disk m] [MonadLiftT Logged m]
    (validator : Schema.Validator) : Request → m Ending
  | .showHelp => return { exitCode := 0, output := helpText }
  | .showVersion => return { exitCode := 0, output := versionText }
  | .generate arguments => arguments.run validator

/-- How much of the journal a request shows. -/
def Request.verbosity (request : Request) (environment : Option String) : Verbosity :=
  match request with
  | .generate arguments => arguments.verbosity environment
  | .showHelp | .showVersion => .silent

/-- The journal as it is printed. -/
def journalText (verbosity : Verbosity) (messages : List Message) : String :=
  String.join ((messages.filter (verbosity.shows ·.level)).map Message.line)

/-- A whole command on a file tree. The journal is printed before the ending. -/
def perform (validator : Schema.Validator) (arguments : List String)
    (environment : Option String) (tree : FileTree) : Ending × FileTree :=
  match Request.ofArguments arguments with
  | .error fault => (fault.ending, tree)
  | .ok request =>
    let result := (request.run validator : StateT FileTree Logged Ending).run tree
    let journal := journalText (request.verbosity environment) result.messages
    let (ending, tree) := result.value
    ({ ending with errors := journal ++ ending.errors }, tree)

end CommandLine

end FieldRegistry
