import FieldRegistry.Text.Decimal
import FieldRegistry.Text.Pieces

/-!
Command line arguments. They are read from left to right, and the first one that is wrong, or
that asks for help or for the version, decides. What is missing or does not go together is found
at the end.
-/

namespace FieldRegistry.CommandLine

/-- Options with a value. -/
inductive ValueOption where
  | dycore
  | config
  | outputDirectory
  | indent
  | schemaPath
deriving DecidableEq

def ValueOption.name : ValueOption → String
  | dycore => "dycore"
  | config => "config"
  | outputDirectory => "output-dir"
  | indent => "indent"
  | schemaPath => "schema-path"

def ValueOption.all : List ValueOption := [.dycore, .config, .outputDirectory, .indent, .schemaPath]

/-- Options without a value. -/
inductive Switch where
  | refuseInvalid
  | debug
  | quiet
  | json
deriving DecidableEq

def Switch.name : Switch → String
  | refuseInvalid => "error-on-no-validate"
  | debug => "debug"
  | quiet => "quiet"
  | json => "json"

def Switch.all : List Switch := [.refuseInvalid, .debug, .quiet, .json]

inductive UsageFault where
  | unexpected (argument : String)
  | missingValue (option : String)
  | unwantedValue (option : String)
  | invalidValue (option value : String)
  | repeated (option : String)
  | conflict (first second : String)
  | missing (arguments : List String)
deriving DecidableEq

def UsageFault.message : UsageFault → String
  | unexpected argument => "unexpected argument '" ++ argument ++ "' found"
  | missingValue option => "a value is required for '" ++ option ++ "' but none was supplied"
  | unwantedValue option => "no value is allowed for '" ++ option ++ "'"
  | invalidValue option value => "invalid value '" ++ value ++ "' for '" ++ option ++ "'"
  | repeated option => "the argument '" ++ option ++ "' cannot be used multiple times"
  | conflict first second => "the argument '" ++ first ++ "' cannot be used with '" ++ second ++ "'"
  | missing arguments =>
    "the following required arguments were not provided: " ++ Text.join ", " arguments

/-- Arguments of a run. -/
structure Arguments where
  registry : String
  dycore : String
  config : String
  outputDirectory : Option String
  indent : Option Nat
  schemaPaths : List String
  switches : List Switch
deriving DecidableEq

/-- What a command line asks for. -/
inductive Request where
  | generate (arguments : Arguments)
  | showHelp
  | showVersion
deriving DecidableEq

/-- What has been read of the arguments of a run. -/
structure Draft where
  registry : Option String := none
  dycore : Option String := none
  config : Option String := none
  outputDirectory : Option String := none
  indent : Option Nat := none
  schemaPaths : List String := []
  switches : List Switch := []

/-- An argument by itself. -/
inductive Token where
  | value (text : String)
  /-- All that follows are values. -/
  | endOfOptions
  /-- A name after two dashes, with the value after an equals sign. -/
  | long (name : String) (value : Option String)
  /-- A letter after one dash. -/
  | short (letter : Char)

def Token.ofText (text : String) : Token :=
  match text.toList with
  | ['-'] => .value text
  | ['-', '-'] => .endOfOptions
  | '-' :: '-' :: rest =>
    match Text.splitFirst '=' (String.ofList rest) with
    | some (name, attached) => .long name (some attached)
    | none => .long (String.ofList rest) none
  | '-' :: letter :: _ => .short letter
  | _ => .value text

def dashed (name : String) : String := "--" ++ name

/-- Values that name a file or a directory are not empty. -/
def readPath (option value : String) : Except UsageFault String :=
  if value.isEmpty then .error (.invalidValue option value) else .ok value

/-- Counts fit a machine word. -/
def readCount (option value : String) : Except UsageFault Nat :=
  match Text.readBelow (Nat.pow 2 64) value with
  | some n => .ok n
  | none => .error (.invalidValue option value)

namespace Draft

def addRegistry (draft : Draft) (value : String) : Except UsageFault Draft := do
  if draft.registry.isSome then throw (.unexpected value)
  return { draft with registry := some (← readPath "<REGISTRY>" value) }

/-- Refuses a second value for an option. -/
def once {α : Type} (option : ValueOption) (old : Option α) : Except UsageFault Unit :=
  if old.isSome then .error (.repeated (dashed option.name)) else .ok ()

def addValue (draft : Draft) (option : ValueOption) (value : String) : Except UsageFault Draft := do
  let name := dashed option.name
  match option with
  | .dycore =>
    once option draft.dycore
    return { draft with dycore := some value }
  | .config =>
    once option draft.config
    return { draft with config := some value }
  | .outputDirectory =>
    once option draft.outputDirectory
    return { draft with outputDirectory := some (← readPath name value) }
  | .indent =>
    once option draft.indent
    return { draft with indent := some (← readCount name value) }
  | .schemaPath =>
    return { draft with schemaPaths := draft.schemaPaths ++ [← readPath name value] }

def addSwitch (draft : Draft) (option : Switch) : Except UsageFault Draft := do
  if draft.switches.contains option then throw (.repeated (dashed option.name))
  return { draft with switches := draft.switches ++ [option] }

/-- The names of required arguments that are not there. -/
def missing (draft : Draft) : List String :=
  (if draft.dycore.isNone then ["--dycore <DYCORE>"] else []) ++
    (if draft.config.isNone then ["--config <CONFIG>"] else []) ++
    (if draft.registry.isNone then ["<REGISTRY>"] else [])

/-- All required arguments are there, and the switches go together. -/
def finish (draft : Draft) : Except UsageFault Request :=
  if draft.switches.contains .debug && draft.switches.contains .quiet then
    .error (.conflict (dashed Switch.debug.name) (dashed Switch.quiet.name))
  else match draft with
    | { registry := some registry, dycore := some dycore, config := some config, .. } =>
      .ok (.generate { draft with registry, dycore, config })
    | _ => .error (.missing draft.missing)

/-- Reads arguments that are values. -/
def readValues (draft : Draft) (values : List String) : Except UsageFault Request := do
  (← values.foldlM addRegistry draft).finish

end Draft

/-- What a long name means. -/
inductive LongName where
  | help
  | version
  | switch (option : Switch)
  | valued (option : ValueOption)

def LongName.ofText? (name : String) : Option LongName :=
  if name == "help" then some .help
  else if name == "version" then some .version
  else match Switch.all.find? (·.name == name) with
    | some option => some (.switch option)
    | none => (ValueOption.all.find? (·.name == name)).map .valued

/-- Reads arguments after others. An option that waits for its value takes the next argument, which
may not be an option. -/
def read (draft : Draft) (awaiting : Option ValueOption) : List String → Except UsageFault Request
  | [] =>
    match awaiting with
    | some option => .error (.missingValue (dashed option.name))
    | none => draft.finish
  | argument :: rest =>
    match awaiting, Token.ofText argument with
    | some option, .value text => do read (← draft.addValue option text) none rest
    | some option, _ => .error (.missingValue (dashed option.name))
    | none, .value text => do read (← draft.addRegistry text) none rest
    | none, .endOfOptions => draft.readValues rest
    | none, .short letter =>
      if letter == 'h' then .ok .showHelp
      else if letter == 'V' then .ok .showVersion
      else .error (.unexpected argument)
    | none, .long name value =>
      match LongName.ofText? name, value with
      | none, _ => .error (.unexpected argument)
      | some (.valued option), some value => do read (← draft.addValue option value) none rest
      | some (.valued option), none => read draft (some option) rest
      | some _, some _ => .error (.unwantedValue (dashed name))
      | some .help, none => .ok .showHelp
      | some .version, none => .ok .showVersion
      | some (.switch option), none => do read (← draft.addSwitch option) none rest

/-- What the arguments of a command line ask for. -/
def Request.ofArguments (arguments : List String) : Except UsageFault Request :=
  read {} none arguments

end FieldRegistry.CommandLine
