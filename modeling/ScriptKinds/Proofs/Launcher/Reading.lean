import Mathlib.Data.List.Basic
import Mathlib.Logic.Function.Basic
import ScriptKinds.Launcher.Command

namespace ScriptKinds.Launcher

namespace StartedProcess

/-- What a process writes to a stream. -/
def stream? (process : StartedProcess) : Stream → Option (List UInt8)
  | .output => process.output?
  | .errors => process.errors?

/-- The lines of a stream of a process.  A missing stream has none. -/
def lines (process : StartedProcess) (stream : Stream) : List String :=
  ((process.stream? stream).map streamLines).getD []

end StartedProcess

namespace Command

/-- What has been delivered to the consumer for a stream. -/
def delivered (command : Command) : Stream → List String
  | .output => command.output
  | .errors => command.errors

/-- The lines that some readers have for the consumer for a stream. -/
def linesOn (readers : List (Stream × List String)) (stream : Stream) : List String :=
  readers.flatMap fun (which, lines) => if which = stream then lines else []

theorem delivered_deliver (command : Command) (stream : Stream) :
    command.deliver.delivered stream =
      command.delivered stream ++ linesOn command.pending stream := by
  cases stream <;> rfl

theorem linesOn_append (readers others : List (Stream × List String)) (stream : Stream) :
    linesOn (readers ++ others) stream = linesOn readers stream ++ linesOn others stream :=
  List.flatMap_append

theorem linesOn_readersOf (process : StartedProcess) (stream : Stream) :
    linesOn (readersOf process) stream = process.lines stream := by
  obtain ⟨output?, errors?, wait, kill⟩ := process
  rcases output? with _ | output <;> rcases errors? with _ | errors <;> cases stream <;>
    simp [linesOn, readersOf, StartedProcess.lines, StartedProcess.stream?]

theorem linesOn_flatMap_readersOf (processes : List StartedProcess) (stream : Stream) :
    linesOn (processes.flatMap readersOf) stream =
      processes.flatMap fun process => process.lines stream := by
  rw [linesOn, List.flatMap_assoc]
  exact List.flatMap_congr fun process _ => linesOn_readersOf process stream

theorem nodup_readersOf (process : StartedProcess) :
    ((readersOf process).map Prod.fst).Nodup := by
  obtain ⟨output?, errors?, wait, kill⟩ := process
  rcases output? with _ | output <;> rcases errors? with _ | errors <;> simp [readersOf]

section Reading

variable {before after : List (Stream × List String)} {consumer : Stream} {line : String}
  {rest : List String}

theorem linesOn_read_self
    (h : ((before ++ (consumer, line :: rest) :: after).map Prod.fst).Nodup) :
    linesOn (before ++ (consumer, line :: rest) :: after) consumer =
      line :: linesOn (before ++ (consumer, rest) :: after) consumer := by
  have hbefore : linesOn before consumer = [] := by
    rw [List.map_append, List.map_cons, List.perm_middle.nodup_iff, List.nodup_cons] at h
    rw [linesOn, List.flatMap_eq_nil_iff]
    rintro ⟨which, lines⟩ hmem
    have hne : which ≠ consumer := by
      rintro rfl
      exact h.1 (List.mem_append_left _ (List.mem_map.mpr ⟨_, hmem, rfl⟩))
    exact if_neg hne
  rw [linesOn_append, linesOn_append, hbefore]
  simp [linesOn]

theorem linesOn_read_of_ne {stream : Stream} (h : consumer ≠ stream) :
    linesOn (before ++ (consumer, line :: rest) :: after) stream =
      linesOn (before ++ (consumer, rest) :: after) stream := by
  simp [linesOn, h]

end Reading

end Command

/-! ### Calls and readers -/

/-- A session while the streams of its processes are read.  The processes are known
by their numbers, in the order in which they have been started. -/
structure Activity where
  session : Session
  processes : List StartedProcess
  /-- The number of processes, from the first one on, whose readers have been
  joined. -/
  joined : Nat
  /-- The readers of a process, each with the lines that it has still to hand over. -/
  left : Nat → List (Stream × List String)

/-- What can happen during the life of a command: the calls, with what comes of
them, and lines that are handed over. -/
inductive Event where
  | started (process : StartedProcess)
  | notStarted (text : String)
  | waited (exitCode : Int)
  | notWaited (error : CommandError)
  | destroyed
  /-- A reader of a process hands a line over to the consumer for a stream. -/
  | handed (number : Nat) (consumer : Stream) (line : String)

namespace Event

/-- The process that an event has started. -/
def process? : Event → Option StartedProcess
  | .started process => some process
  | _ => none

/-- The line that is handed over from a process to the consumer for a stream. -/
def line? (number : Nat) (consumer : Stream) : Event → Option String
  | .handed other stream line => if other = number ∧ stream = consumer then some line else none
  | _ => none

end Event

/-- The processes that have been started, in that order. -/
def startedIn (events : List Event) : List StartedProcess :=
  events.filterMap Event.process?

/-- The lines that have been handed over from a process to the consumer for a
stream, in that order. -/
def handedIn (events : List Event) (number : Nat) (consumer : Stream) : List String :=
  events.filterMap (Event.line? number consumer)

namespace Activity

/-- A command before the first call. -/
def ready (session : Session) : Activity :=
  ⟨session, [], 0, fun _ => []⟩

/-- A start succeeds, and the streams of the process get readers. -/
def adopt (host : Host) (activity : Activity) (process : StartedProcess) : Activity :=
  { session := (activity.session.start host).2
    processes := activity.processes ++ [process]
    joined := activity.joined
    left := Function.update activity.left activity.processes.length (Command.readersOf process) }

/-- A wait succeeds. -/
def join (activity : Activity) : Activity :=
  { activity with session := activity.session.waitFor.2, joined := activity.processes.length }

/-- The readers of a process go on. -/
def read (activity : Activity) (number : Nat) (readers : List (Stream × List String)) : Activity :=
  { activity with left := Function.update activity.left number readers }

@[simp]
theorem left_adopt_self (host : Host) (activity : Activity) (process : StartedProcess) :
    (activity.adopt host process).left activity.processes.length = Command.readersOf process :=
  Function.update_self ..

theorem left_adopt_of_ne {host : Host} {activity : Activity} {process : StartedProcess}
    {number : Nat} (h : number ≠ activity.processes.length) :
    (activity.adopt host process).left number = activity.left number :=
  Function.update_of_ne h ..

@[simp]
theorem left_read_self (activity : Activity) (number : Nat)
    (readers : List (Stream × List String)) :
    (activity.read number readers).left number = readers :=
  Function.update_self ..

theorem left_read_of_ne {activity : Activity} {number other : Nat}
    {readers : List (Stream × List String)} (h : other ≠ number) :
    (activity.read number readers).left other = activity.left other :=
  Function.update_of_ne h ..

/-- The readers of the processes that have not been joined have ended. -/
def Ended (activity : Activity) : Prop :=
  ∀ number, activity.joined ≤ number → ∀ reader ∈ activity.left number, reader.2 = []

end Activity

/-- One call of a command, or one line that a reader hands over.  The readers
touch nothing of the session, so it makes no difference that they also run during
a call: a start takes place before its readers do anything, and a wait when the
last reader has ended. -/
inductive Step (host : Host) : Activity → Event → Activity → Prop where
  | started {activity : Activity} {process : StartedProcess}
      (h : host.launch activity.session.journal activity.session.command.line = .ok process) :
      Step host activity (.started process) (activity.adopt host process)
  | notStarted {activity : Activity} {text : String}
      (h : host.launch activity.session.journal activity.session.command.line = .error text) :
      Step host activity (.notStarted text)
        { activity with session := (activity.session.start host).2 }
  | waited {activity : Activity} {exitCode : Int} (h : activity.session.waitFor.1 = .ok exitCode)
      (hended : activity.Ended) : Step host activity (.waited exitCode) activity.join
  | notWaited {activity : Activity} {error : CommandError}
      (h : activity.session.waitFor.1 = .error error) :
      Step host activity (.notWaited error)
        { activity with session := activity.session.waitFor.2 }
  | destroyed {activity : Activity} :
      Step host activity .destroyed { activity with session := activity.session.destroy }
  | handed {activity : Activity} {number : Nat} {before after : List (Stream × List String)}
      {consumer : Stream} {line : String} {rest : List String}
      (h : activity.left number = before ++ (consumer, line :: rest) :: after) :
      Step host activity (.handed number consumer line)
        (activity.read number (before ++ (consumer, rest) :: after))

/-- The events that lead from one activity to another. -/
inductive Runs (host : Host) (first : Activity) : List Event → Activity → Prop where
  | none : Runs host first [] first
  | step {events : List Event} {activity next : Activity} {event : Event}
      (hruns : Runs host first events activity) (hstep : Step host activity event next) :
      Runs host first (events ++ [event]) next

/-! ### What calls do to a session -/

namespace Session

variable {session : Session}

theorem start_of_launched {host : Host} {process : StartedProcess}
    (h : host.launch session.journal session.command.line = .ok process) :
    session.start host =
      (.ok (), ⟨session.journal.start session.command.line, session.command.adopt process⟩) := by
  simp only [start, h]

theorem start_of_not_launched {host : Host} {text : String}
    (h : host.launch session.journal session.command.line = .error text) :
    session.start host =
      (.error (.host text), ⟨session.journal.start session.command.line, session.command⟩) := by
  simp only [start, h]

/-- What a wait comes to: nothing has been started, or the latest process has
ended, or the host could not wait for it. -/
theorem waitFor_cases (session : Session) :
    (session.command.process? = none ∧ session.waitFor = (.error .notStarted, session)) ∨
      (∃ process exitCode, session.command.process? = some process ∧
        process.wait session.journal = .ok exitCode ∧
          session.waitFor = (.ok exitCode, ⟨session.journal.wait, session.command.deliver⟩)) ∨
      ∃ process text, session.command.process? = some process ∧
        process.wait session.journal = .error text ∧
          session.waitFor = (.error (.host text), ⟨session.journal.wait, session.command⟩) := by
  obtain ⟨journal, command⟩ := session
  cases hprocess : command.process? with
  | none => exact .inl ⟨rfl, by simp only [waitFor, hprocess]⟩
  | some process =>
      right
      cases hwait : process.wait journal with
      | ok exitCode =>
          exact .inl ⟨process, exitCode, rfl, hwait, by simp only [waitFor, hprocess, hwait]⟩
      | error text =>
          exact .inr ⟨process, text, rfl, hwait, by simp only [waitFor, hprocess, hwait]⟩

theorem waitFor_eq_notStarted_iff :
    session.waitFor.1 = .error .notStarted ↔ session.command.process? = none := by
  rcases waitFor_cases session with ⟨hprocess, hwait⟩ | ⟨process, exitCode, hprocess, -, hwait⟩ |
    ⟨process, text, hprocess, -, hwait⟩ <;>
    simp [hprocess, hwait]

theorem command_waitFor_of_error {error : CommandError} (h : session.waitFor.1 = .error error) :
    session.waitFor.2.command = session.command := by
  rcases waitFor_cases session with ⟨-, hwait⟩ | ⟨process, exitCode, -, -, hwait⟩ |
    ⟨process, text, -, -, hwait⟩
  · rw [hwait]
  · rw [hwait] at h
    cases h
  · rw [hwait]

/-- A wait that succeeds reports the exit code of the latest process and delivers
what is pending. -/
theorem waitFor_of_ok {exitCode : Int} (h : session.waitFor.1 = .ok exitCode) :
    session.waitFor.2.command = session.command.deliver ∧
      ∃ process, session.command.process? = some process ∧
        process.wait session.journal = .ok exitCode := by
  rcases waitFor_cases session with ⟨-, hwait⟩ | ⟨process, code, hprocess, hexit, hwait⟩ |
    ⟨process, text, -, -, hwait⟩
  · rw [hwait] at h
    cases h
  · rw [hwait] at h ⊢
    obtain rfl : code = exitCode := Except.ok.inj h
    exact ⟨rfl, process, hprocess, hexit⟩
  · rw [hwait] at h
    cases h

theorem destroy_of_none (h : session.command.process? = none) : session.destroy = session := by
  simp only [destroy, kill, h]

theorem kill_of_some {process : StartedProcess} (h : session.command.process? = some process) :
    session.kill = (process.kill session.journal,
      ⟨{ session.journal with killed := session.journal.killed + 1 }, session.command⟩) := by
  simp only [kill, h]

theorem command_destroy (session : Session) : session.destroy.command = session.command := by
  cases hprocess : session.command.process? with
  | none => rw [destroy_of_none hprocess]
  | some process => rw [destroy, kill_of_some hprocess]

end Session

end ScriptKinds.Launcher
