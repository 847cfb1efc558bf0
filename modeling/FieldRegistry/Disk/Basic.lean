import FieldRegistry.Disk.Path

/-!
What a run asks of a disk, and why a disk refuses.
-/

namespace FieldRegistry

/-- Why a disk refuses a request. -/
inductive Disk.Cause where
  | notFound
  | alreadyExists
  | notDirectory
  | isDirectory
  | nameTooLong
  | nullCharacter
  | notText
  | other (text : String)
deriving DecidableEq

def Disk.Cause.text : Disk.Cause → String
  | notFound => "No such file or directory (os error 2)"
  | alreadyExists => "File exists (os error 17)"
  | notDirectory => "Not a directory (os error 20)"
  | isDirectory => "Is a directory (os error 21)"
  | nameTooLong => "File name too long (os error 36)"
  | nullCharacter => "file name contained an unexpected NUL byte"
  | notText => "stream did not contain valid UTF-8"
  | other text => text

/-- Access to files by the text of their path. -/
class Disk (m : Type → Type) where
  /-- The text of a file. -/
  read : String → m (Except Disk.Cause String)
  /-- Replaces the text of a file, or makes a new one. -/
  write : String → String → m (Except Disk.Cause Unit)
  /-- Makes a directory in one that exists. -/
  makeDirectory : String → m (Except Disk.Cause Unit)
  isDirectory : String → m Bool
  isFile : String → m Bool
  /-- Whether a file or a directory stands at a path. -/
  holds : String → m Bool
  /-- The absolute path that relative paths start from. -/
  workingDirectory : m (Except Disk.Cause String)

namespace Disk

variable {m : Type → Type} [Monad m] [Disk m]

/-- A directory that is there already need not be made. -/
def settle (path : String) (result : Except Cause Unit) : m (Except Cause Unit) := do
  match result with
  | .ok () => return .ok ()
  | .error cause => if ← isDirectory path then return .ok () else return .error cause

/-- Makes the first of some paths as a directory; the others are those above it, which are made
first where they are missing. -/
def makeChain : List String → m (Except Cause Unit)
  | [] => return .error .notFound
  | path :: above => do
    if path.isEmpty then return .ok ()
    match ← makeDirectory path with
    | .error .notFound =>
      match ← makeChain above with
      | .ok () => settle path (← makeDirectory path)
      | .error cause => return .error cause
    | result => settle path result

/-- Makes a directory and those above it that are missing. -/
def makeDirectories (path : String) : m (Except Cause Unit) :=
  makeChain (path :: Path.ancestors path)

end Disk

end FieldRegistry
