import ScriptKinds.Launcher.Error
import ScriptKinds.Launcher.Host

/-!
The life cycle of a command.

A command can be started any number of times.  Each start adds readers for the
streams of the new process, and a wait that succeeds delivers all lines that
are pending.  A request that fails changes nothing in the command.
-/

namespace ScriptKinds.Launcher

/-- The streams of a process that are read. -/
inductive Stream where
  | output | errors
deriving DecidableEq, Repr, Inhabited

/-- A command line with its latest process and what has been read so far. -/
structure Command where
  line : List String
  process? : Option StartedProcess
  /-- The lines of streams that have not been delivered, by stream. -/
  pending : List (Stream × List String)
  output : List String
  errors : List String

namespace Command

/-- A command that has not been started. -/
def ofLine (line : List String) : Command :=
  ⟨line, none, [], [], []⟩

/-- A command line as it is shown. -/
def text (command : Command) : String :=
  " ".intercalate command.line

/-- The lines of the streams of a process. -/
def readersOf (process : StartedProcess) : List (Stream × List String) :=
  (process.output?.map fun bytes => (Stream.output, streamLines bytes)).toList ++
    (process.errors?.map fun bytes => (Stream.errors, streamLines bytes)).toList

/-- The lines of a stream that have not been delivered. -/
def pendingOn (command : Command) (stream : Stream) : List String :=
  command.pending.flatMap fun (which, lines) => if which = stream then lines else []

/-- Takes over a process that has been started. -/
def adopt (command : Command) (process : StartedProcess) : Command :=
  { command with
    process? := some process
    pending := command.pending ++ readersOf process }

/-- The command after all pending lines have been delivered. -/
def deliver (command : Command) : Command :=
  { command with
    pending := []
    output := command.output ++ command.pendingOn .output
    errors := command.errors ++ command.pendingOn .errors }

end Command

/-- A command and the requests that have been made to the host. -/
structure Session where
  journal : Journal
  command : Command

namespace Session

/-- Starts the command of a session. -/
def start (host : Host) (session : Session) : Except CommandError Unit × Session :=
  let ⟨journal, command⟩ := session
  let next := journal.start command.line
  match host.launch journal command.line with
  | .ok process => (.ok (), ⟨next, command.adopt process⟩)
  | .error text => (.error (.host text), ⟨next, command⟩)

/-- Waits until the latest process has ended, and reports its exit code. -/
def waitFor (session : Session) : Except CommandError Int × Session :=
  let ⟨journal, command⟩ := session
  match command.process? with
  | none => (.error .notStarted, session)
  | some process =>
      let next := journal.wait
      match process.wait journal with
      | .ok exitCode => (.ok exitCode, ⟨next, command.deliver⟩)
      | .error text => (.error (.host text), ⟨next, command⟩)

/-- Asks for the latest process to be killed, if there is one, and reports the
answer. -/
def kill (session : Session) : Except String Unit × Session :=
  let ⟨journal, command⟩ := session
  match command.process? with
  | none => (.ok (), session)
  | some process =>
      (process.kill journal, ⟨{ journal with killed := journal.killed + 1 }, command⟩)

/-- Asks for the latest process to be killed, whether that works or not. -/
def destroy (session : Session) : Session :=
  session.kill.2

end Session

end ScriptKinds.Launcher
