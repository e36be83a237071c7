import ScriptKinds.Files.Access
import ScriptKinds.Files.Path

/-!
The files that paths lead to.

A disk lists files and directories by their names from the root.  Following a
path from the working directory goes from directory to directory, so every
name but the last has to be that of a directory.
-/

namespace ScriptKinds.Files

/-- What is at a place of a disk. -/
inductive Entry where
  | directory
  | file (bytes : List UInt8)
deriving DecidableEq, Repr, Inhabited

/-- Files and directories by their names from the root, and the directory from
which relative paths start. -/
structure Disk where
  entries : List (List String × Entry)
  workingDirectory : List String
deriving Repr, Inhabited

namespace Disk

/-- What lies at a place, named from the root.  The directories above an entry
need not be listed. -/
def entry? (disk : Disk) (place : List String) : Option Entry :=
  match disk.entries.lookup place with
  | some entry => some entry
  | none =>
      if place = [] ∨ place = disk.workingDirectory ∨
          disk.entries.any fun entry => place.isPrefixOf entry.1 then
        some .directory
      else none

/-- The longest part that a path may have, in bytes. -/
def nameLimit : Nat := 255

def pathLimit : Nat := 4095

/-- The place that one step from a place leads to. -/
def move (place : List String) (step : String) : List String :=
  if step = "." then place
  else if step = ".." then place.dropLast
  else place ++ [step]

/-- The place that steps from a place lead to.  Each step starts in a
directory. -/
def follow (disk : Disk) : List String → List String → Except AccessError (List String)
  | place, [] => .ok place
  | place, step :: steps =>
      match disk.entry? place with
      | some .directory =>
          if nameLimit < step.utf8ByteSize then .error .nameTooLong
          else disk.follow (move place step) steps
      | some (.file _) => .error .notDirectory
      | none => .error .notFound

/-- The place to which a path leads. -/
def locate (disk : Disk) (text : String) : Except AccessError (List String) :=
  let path := Path.ofText text
  let start := if path.isAbsolute then [] else disk.workingDirectory
  if text = "" then .error .notFound
  else if pathLimit < text.utf8ByteSize then .error .nameTooLong
  else disk.follow start path.steps

/-- What is at the place to which a path leads. -/
def find (disk : Disk) (text : String) : Except AccessError Entry :=
  match disk.locate text with
  | .error error => .error error
  | .ok place =>
      match disk.entry? place with
      | some entry => .ok entry
      | none => .error .notFound

/-- Whether a path leads to anything. -/
def fileExists (disk : Disk) (text : String) : Bool :=
  match disk.find text with
  | .ok _ => true
  | .error _ => false

/-- The bytes of the file to which a path leads. -/
def read (disk : Disk) (text : String) : Except AccessError (List UInt8) :=
  match disk.find text with
  | .ok (.file bytes) => .ok bytes
  | .ok .directory => .error .isDirectory
  | .error error => .error error

/-- The disk with further files, named relative to the working directory. -/
def addFiles (disk : Disk) (files : List (String × List UInt8)) : Disk :=
  let placed := files.map fun (name, bytes) =>
    ((Path.ofText name).steps.foldl move disk.workingDirectory, Entry.file bytes)
  { disk with entries := placed ++ disk.entries }

end Disk

end ScriptKinds.Files
