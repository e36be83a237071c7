import ScriptKinds.Files.Disk
import ScriptKinds.Unix.Program
import ScriptKinds.Unix.Script

/-!
Runs of shell scripts.

A shell runs the pipelines of a script one after the other until the script
ends, exits or kills its own process.  Programs that are not built into the
shell are run by a function that the shell is given.
-/

namespace ScriptKinds.Unix

/-- What a shell can use: the disk, and how to run a command line. -/
structure Surroundings where
  disk : Files.Disk
  runLine : List String → List UInt8 → Except Files.AccessError Run

/-- Where a stream of a command goes. -/
inductive Sink where
  | output | errors | nowhere
deriving DecidableEq, Repr, Inhabited

structure Streams where
  input : List UInt8
  output : Sink
  errors : Sink
deriving DecidableEq, Repr, Inhabited

/-- What has become of a shell after a command. -/
structure Step where
  parameters : Parameters
  run : Run
  /-- Whether the shell itself has ended, and how. -/
  ended? : Option Status
deriving Repr, Inhabited

namespace Step

/-- The step in which a command leaves the shell as it is. -/
def ofRun (parameters : Parameters) (run : Run) : Step :=
  ⟨{ parameters with status := run.status.number }, run, none⟩

/-- The step with which the shell ends. -/
def ending (parameters : Parameters) (run : Run) : Step :=
  ⟨{ parameters with status := run.status.number }, run, some run.status⟩

end Step

/-- The text in front of the messages of a shell. -/
def complaint (parameters : Parameters) (text : String) : String :=
  parameters.name ++ ": 1: " ++ text

/-- The name and the value of a word that is an assignment. -/
def assignment? (word : List Mark) : Option (String × List Mark) :=
  let key := (charsWith .bare word).takeWhile isNameChar
  match key, word.drop key.length with
  | c :: _, .char '=' .bare :: value =>
      if isNameStart c then some (String.ofList key, value) else none
  | _, _ => none

/-- The parameters after the assignments at the start of a command, and the
words behind those. -/
def assignAll (parameters : Parameters) : List (List Mark) → Parameters × List (List Mark)
  | [] => (parameters, [])
  | word :: words =>
      match assignment? word with
      | some (key, value) =>
          assignAll (parameters.assign key (expandText parameters value)) words
      | none => (parameters, word :: words)

/-- The names of the signals that end a process, with their numbers. -/
def signalNames : List (String × Nat) :=
  [("HUP", 1), ("INT", 2), ("QUIT", 3), ("ILL", 4), ("TRAP", 5), ("ABRT", 6), ("BUS", 7),
    ("FPE", 8), ("KILL", 9), ("USR1", 10), ("SEGV", 11), ("USR2", 12), ("PIPE", 13), ("ALRM", 14),
    ("TERM", 15)]

/-- The number of a signal by its number or its name. -/
def signal? (text : String) : Option Nat :=
  match text.toNat? with
  | some number => if number = 0 ∨ signalNames.any (·.2 = number) then some number else none
  | none => signalNames.lookup text

/-- The signal that `kill` is to send, and the processes it is for. -/
def killRequest? : List String → Option (Nat × List String)
  | "-s" :: name :: targets => (signal? name).map (·, targets)
  | argument :: targets =>
      match argument.toList with
      | '-' :: name => (signal? (String.ofList name)).map (·, targets)
      | _ => some (15, argument :: targets)
  | [] => none

/-- A command that is built into the shell. -/
def runBuiltin? (parameters : Parameters) (name : String) (arguments : List String) :
    Option Step :=
  match name with
  | ":" | "true" => some (.ofRun parameters .success)
  | "false" => some (.ofRun parameters (.ofStatus (.exited 1)))
  | "echo" => some (.ofRun parameters (.ofOutput (echo true arguments)))
  | "exit" =>
      match arguments with
      | [] => some (.ending parameters (.ofStatus (.exited parameters.status.toUInt8)))
      | code :: _ =>
          match code.toNat? with
          | some code => some (.ending parameters (.ofStatus (.exited code.toUInt8)))
          | none =>
              some (.ending parameters
                (.failure 2 (complaint parameters ("exit: Illegal number: " ++ code))))
  | "kill" =>
      match killRequest? arguments with
      | none => some (.ofRun parameters (.ofStatus (.exited 1)))
      | some (signal, targets) =>
          if signal ≠ 0 ∧ targets.contains (toString parameters.processId) then
            some (.ending parameters (.ofStatus (.killed signal)))
          else some (.ofRun parameters .success)
  | _ => none

/-- A command with its words expanded.  After `exec` the shell runs nothing
else. -/
def runWords (surroundings : Surroundings) (parameters : Parameters) (input : List UInt8) :
    List String → Step
  | [] => .ofRun parameters .success
  | "exec" :: name :: arguments =>
      let step := runWords surroundings parameters input (name :: arguments)
      { step with ended? := some step.run.status }
  | name :: arguments =>
      match runBuiltin? parameters name arguments with
      | some step => step
      | none =>
          match surroundings.runLine (name :: arguments) input with
          | .ok run => .ofRun parameters run
          | .error .permissionDenied =>
              .ofRun parameters
                (.failure 126 (complaint parameters (name ++ ": Permission denied")))
          | .error _ =>
              .ofRun parameters (.failure 127 (complaint parameters (name ++ ": not found")))

/-- The streams of a command after a redirection.  What goes to a file is not
kept. -/
def redirect (surroundings : Surroundings) (parameters : Parameters) (streams : Streams) :
    ShellOperator × List Mark → Except String Streams
  | (.input, target) =>
      let path := expandText parameters target
      match surroundings.disk.read path with
      | .ok bytes => .ok { streams with input := bytes }
      | .error _ => .error ("cannot open " ++ path ++ ": No such file")
  | (.toFile 1, _) => .ok { streams with output := .nowhere }
  | (.toFile 2, _) => .ok { streams with errors := .nowhere }
  | (.toStream descriptor, target) =>
      match descriptor, expandText parameters target with
      | 1, "2" => .ok { streams with output := streams.errors }
      | 2, "1" => .ok { streams with errors := streams.output }
      | 1, "-" => .ok { streams with output := .nowhere }
      | 2, "-" => .ok { streams with errors := .nowhere }
      | _, _ => .ok streams
  | _ => .ok streams

/-- The bytes that a sink receives. -/
def received (streams : Streams) (run : Run) (sink : Sink) : List UInt8 :=
  (if streams.output = sink then run.output else []) ++
    if streams.errors = sink then run.errors else []

/-- Sends what a step has written to where its streams go. -/
def Step.sendTo (step : Step) (streams : Streams) : Step :=
  { step with
    run :=
      { step.run with
        output := received streams step.run .output
        errors := received streams step.run .errors } }

/-- Runs a command on some input. -/
def runCommand (surroundings : Surroundings) (parameters : Parameters) (input : List UInt8)
    (command : SimpleCommand) : Step :=
  match command.redirections.foldlM (redirect surroundings parameters)
    ⟨input, .output, .errors⟩ with
  | .error text => .ofRun parameters (.failure 2 (complaint parameters text))
  | .ok streams =>
      let (parameters, words) := assignAll parameters command.words
      (runWords surroundings parameters streams.input
        (words.flatMap (expandWords parameters))).sendTo streams

/-- Runs the commands of a pipeline that follow a run.  Each has a shell of its
own, so only a shell that is killed shows. -/
def runRest (surroundings : Surroundings) (parameters : Parameters) (before : Step) :
    Pipeline → Step
  | [] => before
  | command :: others =>
      let step := runCommand surroundings parameters before.run.output command
      let run := { step.run with errors := before.run.errors ++ step.run.errors }
      runRest surroundings parameters (.ofRun parameters run) others

/-- The pipeline without an exclamation mark at its start, and whether there is
one. -/
def withoutNegation : Pipeline → Bool × Pipeline
  | command :: others =>
      match command.words with
      | [.char '!' .bare] :: words => (true, { command with words := words } :: others)
      | _ => (false, command :: others)
  | [] => (false, [])

/-- Turns success into failure and the other way round, unless the shell ends. -/
def Step.negate (step : Step) : Step :=
  match step.ended? with
  | some _ => step
  | none =>
      let code : UInt8 := if step.run.status = .exited 0 then 1 else 0
      .ofRun step.parameters { step.run with status := .exited code }

/-- Runs the commands of a pipeline, each on the output of the one before it. -/
def runPipeline (surroundings : Surroundings) (parameters : Parameters) (pipeline : Pipeline) :
    Step :=
  let (negated, commands) := withoutNegation pipeline
  let step := match commands with
    | [] => Step.ofRun parameters .success
    | command :: others =>
        runRest surroundings parameters (runCommand surroundings parameters [] command) others
  if negated then step.negate else step

/-- Whether a pipeline runs after a status. -/
def Link.applies (link : Link) (status : Nat) : Bool :=
  match link with
  | .always => true
  | .onSuccess => status = 0
  | .onFailure => status ≠ 0

/-- Runs pipelines in turn, each if its link applies. -/
def runPipelines (surroundings : Surroundings) (parameters : Parameters) :
    List (Link × Pipeline) → Run
  | [] => .ofStatus (.exited parameters.status.toUInt8)
  | (link, pipeline) :: others =>
      if link.applies parameters.status then
        let step := runPipeline surroundings parameters pipeline
        match step.ended? with
        | some _ => step.run
        | none =>
            let rest := runPipelines surroundings step.parameters others
            { rest with
              output := step.run.output ++ rest.output
              errors := step.run.errors ++ rest.errors
              isLong := step.run.isLong || rest.isLong }
      else runPipelines surroundings parameters others

/-- The number of the process in which a shell runs. -/
def shellProcessId : Nat := 4242

def runScript (surroundings : Surroundings) (name : String) (arguments : List String)
    (text : String) : Run :=
  let parameters : Parameters := ⟨[], name, arguments, 0, shellProcessId⟩
  match scriptOf? text with
  | some script => runPipelines surroundings parameters script
  | none => .failure 2 (complaint parameters "Syntax error")

/-- Runs a shell with a script in its arguments, in a file or in its input. -/
def runShell (surroundings : Surroundings) (name : String) (input : List UInt8) :
    List String → Run
  | [] => runScript surroundings name [] ((Text.decode? input).getD "")
  | "-c" :: [] => .failure 2 (name ++ ": 0: -c requires an argument")
  | "-c" :: text :: [] => runScript surroundings name [] text
  | "-c" :: text :: name :: arguments => runScript surroundings name arguments text
  | path :: arguments =>
      if "-".isPrefixOf path then runShell surroundings name input arguments
      else
        match surroundings.disk.read path with
        | .ok bytes => runScript surroundings path arguments ((Text.decode? bytes).getD "")
        | .error _ => .failure 2 (name ++ ": 0: cannot open " ++ path ++ ": No such file")

end ScriptKinds.Unix
