import FieldRegistry.Disk.Basic
import FieldRegistry.OrderedMap

/-!
A disk in memory: files and directories by their location, a list of names from the root.
-/

namespace FieldRegistry

inductive FileTree.Entry where
  | directory
  | text (contents : String)
  /-- A file whose bytes are no text. -/
  | binary (bytes : List UInt8)
deriving DecidableEq

structure FileTree where
  /-- What stands below the root, by location. -/
  entries : List (List String × FileTree.Entry)
  /-- The location that relative paths start from. -/
  home : List String
deriving DecidableEq

namespace FileTree

open Disk (Cause)

/-- What stands at a location. The root is a directory. -/
def get? (tree : FileTree) (location : List String) : Option Entry :=
  if location.isEmpty then some .directory else tree.entries.lookup location

/-- Puts an entry at a location, in place of the one that stands there. -/
def put (tree : FileTree) (location : List String) (entry : Entry) : FileTree :=
  { tree with entries := putEntry location entry tree.entries }

theorem get?_put {tree : FileTree} {location : List String} (h : location ≠ [])
    (other : List String) (entry : Entry) :
    (tree.put location entry).get? other =
      if other = location then some entry else tree.get? other := by
  cases other with
  | nil => simp [get?, h.symm]
  | cons name names => simp [get?, put, lookup_putEntry]

/-- The location of one more piece of a path, from a directory. -/
def step (tree : FileTree) (location : List String) (piece : String) :
    Except Cause (List String) :=
  match tree.get? location with
  | none => .error .notFound
  | some (.text _) | some (.binary _) => .error .notDirectory
  | some .directory =>
    if piece.isEmpty || piece == "." then .ok location
    else if piece == ".." then .ok location.dropLast
    else if 255 < piece.utf8ByteSize then .error .nameTooLong
    else .ok (location ++ [piece])

/-- The most bytes that a path may have. -/
def longestPath : Nat := 4095

/-- Where a path starts, and its pieces. -/
def start (tree : FileTree) (path : String) : Except Cause (List String × List String) :=
  if path.toList.contains (Char.ofNat 0) then .error .nullCharacter
  else if path.isEmpty then .error .notFound
  else if longestPath < path.utf8ByteSize then .error .nameTooLong
  else
    let parts := Path.Parts.ofText path
    .ok (if parts.isAbsolute then [] else tree.home, parts.reversed)

/-- The location that a path leads to. All of it but the last name has to exist. -/
def locate (tree : FileTree) (path : String) : Except Cause (List String) := do
  let (location, reversed) ← tree.start path
  reversed.reverse.foldlM tree.step location

/-- What stands at the end of a path. -/
def find (tree : FileTree) (path : String) : Except Cause Entry := do
  match tree.get? (← tree.locate path) with
  | some entry => return entry
  | none => throw .notFound

def readText (tree : FileTree) (path : String) : Except Cause String := do
  match ← tree.find path with
  | .text contents => return contents
  | .directory => throw .isDirectory
  | .binary _ => throw .notText

def writeText (tree : FileTree) (path contents : String) : Except Cause FileTree := do
  let location ← tree.locate path
  match tree.get? location with
  | some .directory => throw .isDirectory
  | _ => return tree.put location (.text contents)

def isDirectory (tree : FileTree) (path : String) : Bool :=
  match tree.find path with
  | .ok .directory => true
  | _ => false

/-- Makes a directory below one that exists. Slashes at the end of the path do not count. -/
def addDirectory (tree : FileTree) (path : String) : Except Cause FileTree := do
  let (location, reversed) ← tree.start path
  match reversed.dropWhile String.isEmpty with
  | [] => throw .alreadyExists
  | name :: before =>
    let location ← (name :: before).reverse.foldlM tree.step location
    if name == "." || name == ".." then throw .alreadyExists
    match tree.get? location with
    | some _ => throw .alreadyExists
    | none => return tree.put location .directory

/-- Whether a text file or another file stands at a path. -/
def isFile (tree : FileTree) (path : String) : Bool :=
  match tree.find path with
  | .ok (.text _) | .ok (.binary _) => true
  | _ => false

def holds (tree : FileTree) (path : String) : Bool :=
  match tree.find path with
  | .ok _ => true
  | .error _ => false

def homeText (tree : FileTree) : String := "/" ++ Text.join "/" tree.home

/-- Takes over a changed tree; a refused change leaves the tree as it is. -/
def commit {m : Type → Type} [Monad m] (change : FileTree → Except Cause FileTree) :
    StateT FileTree m (Except Cause Unit) := do
  match change (← get) with
  | .ok tree =>
    set tree
    return .ok ()
  | .error cause => return .error cause

instance {m : Type → Type} [Monad m] : Disk (StateT FileTree m) where
  read path := return (← get).readText path
  write path contents := commit (·.writeText path contents)
  makeDirectory path := commit (·.addDirectory path)
  isDirectory path := return (← get).isDirectory path
  isFile path := return (← get).isFile path
  holds path := return (← get).holds path
  workingDirectory := return .ok (← get).homeText

end FileTree

end FieldRegistry
