import ScriptKinds.CommandLine.Run

/-!
The program: it infers the set of value kinds that each variable of a script
can hold.
-/

namespace ScriptKinds.CommandLine

/-- The reason behind an error of the operating system.  Its number may come
with the opposite sign. -/
def accessErrorOf : IO.Error → Files.AccessError
  | .noFileOrDirectory .. => .notFound
  | .permissionDenied .. => .permissionDenied
  | .inappropriateType _ code _ => if code = 21 ∨ code = -21 then .isDirectory else .notDirectory
  | error => .other 5 (toString error)

/-- The bytes of a file. -/
def readFileBytes (path : String) : IO (Except Files.AccessError (List UInt8)) := do
  match ← (IO.FS.readBinFile path).toBaseIO with
  | .ok bytes => return .ok bytes.toList
  | .error error => return .error (accessErrorOf error)

/-- The outcome of a run on the files of the machine. -/
def runHere (arguments : List String) : IO Outcome := do
  match Request.ofArguments arguments with
  | .error error => return ofUsageError error
  | .ok .help => return helpOutcome
  | .ok (.analyse options) => return analyseFile options (← readFileBytes options.path)

end ScriptKinds.CommandLine

def main (arguments : List String) : IO UInt32 := do
  let outcome ← ScriptKinds.CommandLine.runHere arguments
  (← IO.getStdout).putStr outcome.output
  (← IO.getStderr).putStr outcome.errors
  return outcome.exitCode.toUInt32
