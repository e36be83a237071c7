import ScriptKinds.CommandLine.Report
import ScriptKinds.Files.Access
import ScriptKinds.Inference.Basic
import ScriptKinds.Source.Diagnostic
import ScriptKinds.Text.Utf8

/-!
Runs of the command line.

A run analyses one script and reports its symbols.  The exit code tells a
report from a script that cannot be read or has a fault, and both from wrong
arguments.
-/

namespace ScriptKinds.CommandLine

/-- What a run of the program leaves behind. -/
structure Outcome where
  exitCode : Nat
  output : String
  errors : String
deriving DecidableEq, Repr, Inhabited

/-- Why a file cannot be read as a text. -/
inductive ReadError where
  | access (error : Files.AccessError)
  | notText
deriving DecidableEq, Repr, Inhabited

/-- What is said of a file that cannot be read. -/
def ReadError.message : ReadError → String
  | access error => error.message
  | notText => "stream did not contain valid UTF-8"

/-- The text in the bytes of a file. -/
def sourceOf (content : Except Files.AccessError (List UInt8)) : Except ReadError String :=
  match content with
  | .error error => .error (.access error)
  | .ok bytes =>
      match Text.decode? bytes with
      | some source => .ok source
      | none => .error .notText

def usage : String :=
  "usage: jskinds [--format text|json] FILE\n"

/-- The outcome of asking for help. -/
def helpOutcome : Outcome := ⟨0, usage, ""⟩

/-- The outcome of arguments that are wrong. -/
def ofUsageError (error : UsageError) : Outcome :=
  ⟨2, "", "error: " ++ error.message ++ "\n" ++ usage⟩

/-- What is shown of a script that is refused. -/
def refusal (source path : String) : Failure → String
  | .fault fault => Diagnostic.render fault source path
  | .exhausted | .broken => ""

/-- The outcome for a script with a text. -/
def analyseText (options : Options) (source : String) : Outcome :=
  match Model.ofSource options.path source with
  | .ok model => ⟨0, report options.format source model, ""⟩
  | .error failure => ⟨1, "", refusal source options.path failure⟩

/-- The outcome of analysing the content of the file that the options name. -/
def analyseFile (options : Options) (content : Except Files.AccessError (List UInt8)) : Outcome :=
  match sourceOf content with
  | .ok source => analyseText options source
  | .error error =>
      ⟨1, "", "Error: failed to read " ++ options.path ++ ": " ++ error.message ++ "\n"⟩

/-- The outcome of a run, given what reading a file gives. -/
def run (read : String → Except Files.AccessError (List UInt8)) (arguments : List String) :
    Outcome :=
  match Request.ofArguments arguments with
  | .error error => ofUsageError error
  | .ok .help => helpOutcome
  | .ok (.analyse options) => analyseFile options (read options.path)

end ScriptKinds.CommandLine
