import ScriptKinds.Launcher.Host
import ScriptKinds.Unix.Shell

/-!
A small Unix system.

The system has the usual directories and a few programs.  It starts command
lines, and it is a host for the launcher.
-/

namespace ScriptKinds.Unix

/-- Why a command line cannot be started. -/
inductive StartError where
  | emptyCommandLine
  /-- A command line cannot hold the character zero. -/
  | nulCharacter
  | access (error : Files.AccessError)
deriving DecidableEq, Repr, Inhabited

/-- What is said of a process that cannot be started. -/
def StartError.message : StartError → String
  | emptyCommandLine => "empty command line"
  | nulCharacter => "nul byte found in provided data"
  | access error => error.message

/-- The directories that hold programs, in the order in which they are
searched. -/
def programDirectories : List (List String) :=
  [["usr", "local", "bin"], ["usr", "bin"], ["bin"]]

/-- The programs in each of the main directories. -/
def programNames : List String :=
  ["sh", "dash", "true", "false", "echo", "printf", "cat", "sleep", "bash", "env", "ls"]

def usualPlaces : List (List String × Files.Entry) :=
  [(["dev", "null"], .file []), (["dev", "zero"], .file []), (["etc", "passwd"], .file []),
    (["etc", "hosts"], .file []), (["tmp"], .directory), (["var", "tmp"], .directory),
    (["home"], .directory), (["root"], .directory), (["proc"], .directory),
    (["sys"], .directory), (["lib"], .directory), (["opt"], .directory), (["mnt"], .directory),
    (["srv"], .directory), (["run"], .directory), (["sbin"], .directory),
    (["usr", "sbin"], .directory), (["usr", "lib"], .directory), (["usr", "share"], .directory),
    (["usr", "local", "bin"], .directory)]

/-- A disk with the programs that are there. -/
def systemDisk : Files.Disk :=
  let programs := [["bin"], ["usr", "bin"]].flatMap fun place =>
    programNames.map fun name => (place ++ [name], Files.Entry.file [])
  ⟨programs ++ usualPlaces, ["tmp", "work"]⟩

def programAt (disk : Files.Disk) (place : List String) : Except Files.AccessError Program :=
  match disk.entry? place with
  | none => .error .notFound
  | some .directory => .error .permissionDenied
  | some (.file _) =>
      match place.getLast?.bind Program.ofName? with
      | some program =>
          if place.dropLast ∈ programDirectories then .ok program else .error .permissionDenied
      | none => .error .permissionDenied

/-- The program of a name.  A name without slashes is searched for in the
program directories. -/
def programOf (disk : Files.Disk) (name : String) : Except Files.AccessError Program :=
  if name = "" then .error .notFound
  else if name.toList.contains '/' then (disk.locate name).bind (programAt disk)
  else
    match (programDirectories.map (· ++ [name])).find? fun place => (disk.entry? place).isSome with
    | some place => programAt disk place
    | none => .error .notFound

/-- Runs a command line with input.  The depth bounds how many shells start
one another. -/
def runLine (disk : Files.Disk) : Nat → List String → List UInt8 → Except Files.AccessError Run
  | _, [], _ => .error .notFound
  | depth, name :: arguments, input =>
      match programOf disk name with
      | .error error => .error error
      | .ok .shell =>
          match depth with
          | 0 => .error .notFound
          | depth + 1 => .ok (runShell ⟨disk, runLine disk depth⟩ name input arguments)
      | .ok program => .ok (runProgram disk name arguments input program)

/-- How deep shells may be nested. -/
def depthLimit : Nat := 16

/-- Runs a command line, or says why it cannot be started. -/
def start (disk : Files.Disk) (line : List String) : Except StartError Run :=
  if line = [] then .error .emptyCommandLine
  else if line.any fun argument => argument.toList.contains '\x00' then .error .nulCharacter
  else
    match runLine disk depthLimit line [] with
    | .ok run => .ok run
    | .error error => .error (.access error)

/-- The process of a run that starts after the requests in a journal.  A long
run ends when it is killed. -/
def processOf (run : Run) (started : Launcher.Journal) : Launcher.StartedProcess where
  output? := some run.output
  errors? := some run.errors
  wait journal :=
    if run.isLong ∧ started.killed < journal.killed then .ok (-1) else .ok run.status.exitCode
  kill _ := .ok ()

def hostOf (disk : Files.Disk) : Launcher.Host where
  fileExists := disk.fileExists
  launch journal line :=
    match start disk line with
    | .ok run => .ok (processOf run journal)
    | .error error => .error error.message

end ScriptKinds.Unix
