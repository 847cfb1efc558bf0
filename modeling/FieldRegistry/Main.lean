import FieldRegistry.CommandLine.Run

/-!
The command on the disk of the machine, for any validator of schema files. Messages are printed as
they arise.
-/

namespace FieldRegistry

namespace Disk

/-- The cause of an error of the machine's disk. -/
def Cause.ofError (error : IO.Error) : Cause :=
  match error with
  | .noFileOrDirectory .. => .notFound
  | .alreadyExists .. => .alreadyExists
  | .inappropriateType _ code _ => if code == 21 then .isDirectory else .notDirectory
  | _ => .other (toString error)

/-- Runs a request to the machine's disk. -/
def attempt {α : Type} (action : IO α) : IO (Except Cause α) := do
  match ← action.toBaseIO with
  | .ok value => return .ok value
  | .error error => return .error (.ofError error)

end Disk

instance : Disk IO where
  read path := do
    match ← Disk.attempt (IO.FS.readBinFile path) with
    | .error cause => return .error cause
    | .ok bytes =>
      match String.fromUTF8? bytes with
      | some text => return .ok text
      | none => return .error .notText
  write path contents := Disk.attempt (IO.FS.writeFile path contents)
  makeDirectory path := Disk.attempt (IO.FS.createDir path)
  isDirectory path := do ((← IO.currentDir) / path).isDir
  isFile path := do
    let place := (← IO.currentDir) / path
    return (← place.pathExists) && !(← place.isDir)
  holds path := do ((← IO.currentDir) / path).pathExists
  workingDirectory := Disk.attempt do return (← IO.currentDir).toString

/-- Commands that print messages as far as a verbosity shows them. -/
abbrev Printing := ReaderT Verbosity IO

instance : Disk Printing where
  read path := liftM (Disk.read path : IO _)
  write path contents := liftM (Disk.write path contents : IO _)
  makeDirectory path := liftM (Disk.makeDirectory path : IO _)
  isDirectory path := liftM (Disk.isDirectory path : IO _)
  isFile path := liftM (Disk.isFile path : IO _)
  holds path := liftM (Disk.holds path : IO _)
  workingDirectory := liftM (Disk.workingDirectory : IO _)

instance : MonadLift Logged Printing where
  monadLift x := do
    (← IO.getStderr).putStr (CommandLine.journalText (← read) x.messages)
    return x.value

/-- Prints what a command leaves behind. -/
def CommandLine.Ending.print (ending : CommandLine.Ending) : IO UInt32 := do
  (← IO.getStdout).putStr ending.output
  (← IO.getStderr).putStr ending.errors
  return ending.exitCode.toUInt32

/-- The whole command. -/
def CommandLine.main (validator : Schema.Validator) (arguments : List String) : IO UInt32 := do
  match CommandLine.Request.ofArguments arguments with
  | .error fault => fault.ending.print
  | .ok request =>
    let verbosity := request.verbosity (← IO.getEnv "RUST_LOG")
    let ending ← (request.run validator : Printing CommandLine.Ending).run verbosity
    ending.print

end FieldRegistry
