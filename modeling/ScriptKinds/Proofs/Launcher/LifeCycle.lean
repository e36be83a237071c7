import ScriptKinds.Proofs.Launcher.Building
import ScriptKinds.Proofs.Launcher.Reading
import ScriptKinds.Proofs.Launcher.StreamLines

/-!
The life cycle of a command.

Whatever the calls of a command come to, and however its readers take turns, the
lines that have been handed over and those that are left make up the streams.  So
when a wait succeeds, each line has been handed over once, in the order of its
stream, and nothing remains for the next wait.
-/

namespace ScriptKinds.Launcher

/-! ### What holds between the events -/

/-- The lines of a stream of a process, by the number of the process. -/
def linesFrom (processes : List StartedProcess) (number : Nat) (stream : Stream) : List String :=
  (processes[number]?.map fun process => process.lines stream).getD []

theorem linesFrom_append_self (processes : List StartedProcess) (process : StartedProcess)
    (stream : Stream) :
    linesFrom (processes ++ [process]) processes.length stream = process.lines stream := by
  simp [linesFrom]

theorem linesFrom_append_of_ne {processes : List StartedProcess} {process : StartedProcess}
    {number : Nat} (h : number ≠ processes.length) (stream : Stream) :
    linesFrom (processes ++ [process]) number stream = linesFrom processes number stream := by
  rw [linesFrom, linesFrom, List.getElem?_append]
  split
  · rfl
  · rename_i hnumber
    rw [List.getElem?_eq_none (by simp; omega), List.getElem?_eq_none (by omega)]

theorem startedIn_append (events : List Event) (event : Event) :
    startedIn (events ++ [event]) = startedIn events ++ event.process?.toList := by
  rw [startedIn, List.filterMap_append]
  cases hprocess : event.process? <;> simp [startedIn, hprocess]

theorem startedIn_append_of_none {event : Event} (events : List Event)
    (h : event.process? = none) : startedIn (events ++ [event]) = startedIn events := by
  rw [startedIn_append, h, Option.toList_none, List.append_nil]

theorem handedIn_append (events : List Event) (event : Event) (number : Nat) (consumer : Stream) :
    handedIn (events ++ [event]) number consumer =
      handedIn events number consumer ++ (event.line? number consumer).toList := by
  rw [handedIn, List.filterMap_append]
  cases hline : event.line? number consumer <;> simp [handedIn, hline]

theorem handedIn_append_of_none {event : Event} {number : Nat} {consumer : Stream}
    (events : List Event) (h : event.line? number consumer = none) :
    handedIn (events ++ [event]) number consumer = handedIn events number consumer := by
  rw [handedIn_append, h, Option.toList_none, List.append_nil]

/-- What has been started, handed over and joined, and what has not, adds up to
what there is. -/
structure Sound (events : List Event) (activity : Activity) : Prop where
  processes : activity.processes = startedIn events
  latest : activity.session.command.process? = activity.processes.getLast?
  pending : activity.session.command.pending =
    (activity.processes.drop activity.joined).flatMap Command.readersOf
  delivered : ∀ stream, activity.session.command.delivered stream =
    (activity.processes.take activity.joined).flatMap fun process => process.lines stream
  consumers : ∀ number, ((activity.left number).map Prod.fst).Nodup
  lines : ∀ number stream,
    handedIn events number stream ++ Command.linesOn (activity.left number) stream =
      linesFrom activity.processes number stream
  ended : ∀ number < activity.joined, ∀ reader ∈ activity.left number, reader.2 = []
  joined_le : activity.joined ≤ activity.processes.length

namespace Sound

variable {host : Host} {events : List Event} {activity next : Activity} {event : Event}

theorem ready (journal : Journal) (line : List String) :
    Sound [] (.ready ⟨journal, .ofLine line⟩) where
  processes := rfl
  latest := rfl
  pending := rfl
  delivered stream := by cases stream <;> rfl
  consumers _ := List.nodup_nil
  lines _ _ := rfl
  ended _ h := absurd h (Nat.not_lt_zero _)
  joined_le := Nat.le_refl 0

/-- A call that leaves the command as it was keeps what has been read and what has
not. -/
theorem of_same_command (h : Sound events activity) {session : Session}
    (hcommand : session.command = activity.session.command) (hprocess : event.process? = none)
    (hline : ∀ number consumer, event.line? number consumer = none) :
    Sound (events ++ [event]) { activity with session := session } where
  processes := by rw [startedIn_append_of_none events hprocess, ← h.processes]
  latest := by rw [hcommand, h.latest]
  pending := by rw [hcommand, h.pending]
  delivered stream := by rw [hcommand, h.delivered]
  consumers := h.consumers
  lines number stream := by
    rw [handedIn_append_of_none events (hline number stream)]
    exact h.lines number stream
  ended := h.ended
  joined_le := h.joined_le

theorem adopt (h : Sound events activity) {process : StartedProcess}
    (hlaunch : host.launch activity.session.journal activity.session.command.line = .ok process) :
    Sound (events ++ [.started process]) (activity.adopt host process) := by
  have hcommand :
      (activity.adopt host process).session.command = activity.session.command.adopt process := by
    rw [Activity.adopt, Session.start_of_launched hlaunch]
  have hprocesses : (activity.adopt host process).processes = activity.processes ++ [process] := rfl
  constructor
  case processes =>
    rw [hprocesses, startedIn_append, ← h.processes]
    rfl
  case latest =>
    rw [hcommand, hprocesses, List.getLast?_concat]
    rfl
  case pending =>
    rw [hcommand, hprocesses]
    change activity.session.command.pending ++ Command.readersOf process =
      ((activity.processes ++ [process]).drop activity.joined).flatMap Command.readersOf
    rw [h.pending, List.drop_append_of_le_length h.joined_le, List.flatMap_append,
      List.flatMap_singleton]
  case delivered =>
    intro stream
    rw [hcommand, hprocesses]
    change activity.session.command.delivered stream =
      ((activity.processes ++ [process]).take activity.joined).flatMap _
    rw [h.delivered, List.take_append_of_le_length h.joined_le]
  case consumers =>
    intro number
    by_cases hnumber : number = activity.processes.length
    · subst hnumber
      rw [Activity.left_adopt_self]
      exact Command.nodup_readersOf process
    · rw [Activity.left_adopt_of_ne hnumber]
      exact h.consumers number
  case lines =>
    intro number stream
    rw [handedIn_append_of_none events rfl, hprocesses]
    by_cases hnumber : number = activity.processes.length
    · subst hnumber
      -- Nothing has been handed over from a process that has not been started.
      have hnone := h.lines activity.processes.length stream
      rw [linesFrom, List.getElem?_eq_none (Nat.le_refl _)] at hnone
      rw [(List.append_eq_nil_iff.mp hnone).1, Activity.left_adopt_self, linesFrom_append_self,
        Command.linesOn_readersOf, List.nil_append]
    · rw [Activity.left_adopt_of_ne hnumber, linesFrom_append_of_ne hnumber]
      exact h.lines number stream
  case ended =>
    intro number hnumber
    have hne : number ≠ activity.processes.length :=
      Nat.ne_of_lt (Nat.lt_of_lt_of_le hnumber h.joined_le)
    rw [Activity.left_adopt_of_ne hne]
    exact h.ended number hnumber
  case joined_le =>
    rw [hprocesses, List.length_append]
    exact Nat.le_add_right_of_le h.joined_le

theorem left_of_ended (h : Sound events activity) (hended : activity.Ended) (number : Nat) :
    ∀ reader ∈ activity.left number, reader.2 = [] := by
  by_cases hjoined : number < activity.joined
  · exact h.ended number hjoined
  · exact hended number (Nat.le_of_not_lt hjoined)

theorem join (h : Sound events activity) {exitCode : Int}
    (hwait : activity.session.waitFor.1 = .ok exitCode) (hended : activity.Ended) :
    Sound (events ++ [.waited exitCode]) activity.join := by
  have hcommand : activity.join.session.command = activity.session.command.deliver :=
    (Session.waitFor_of_ok hwait).1
  constructor
  case processes =>
    rw [startedIn_append_of_none events rfl]
    exact h.processes
  case latest =>
    rw [hcommand]
    exact h.latest
  case pending =>
    rw [hcommand]
    change [] = (activity.processes.drop activity.processes.length).flatMap Command.readersOf
    rw [List.drop_length]
    rfl
  case delivered =>
    intro stream
    change _ = (activity.processes.take activity.processes.length).flatMap _
    rw [hcommand, Command.delivered_deliver, h.delivered, h.pending,
      Command.linesOn_flatMap_readersOf, ← List.flatMap_append, List.take_append_drop,
      List.take_length]
  case consumers => exact h.consumers
  case lines =>
    intro number stream
    rw [handedIn_append_of_none events rfl]
    exact h.lines number stream
  case ended => exact fun number _ => h.left_of_ended hended number
  case joined_le => exact Nat.le_refl _

theorem read (h : Sound events activity) {number : Nat}
    {before after : List (Stream × List String)} {consumer : Stream} {line : String}
    {rest : List String}
    (hleft : activity.left number = before ++ (consumer, line :: rest) :: after) :
    Sound (events ++ [.handed number consumer line])
      (activity.read number (before ++ (consumer, rest) :: after)) := by
  have hconsumers := h.consumers number
  rw [hleft] at hconsumers
  constructor
  case processes =>
    rw [startedIn_append_of_none events rfl]
    exact h.processes
  case latest => exact h.latest
  case pending => exact h.pending
  case delivered => exact h.delivered
  case consumers =>
    intro other
    by_cases hother : other = number
    · subst hother
      rw [Activity.left_read_self]
      simpa using hconsumers
    · rw [Activity.left_read_of_ne hother]
      exact h.consumers other
  case lines =>
    intro other stream
    change _ = linesFrom activity.processes other stream
    rw [handedIn_append, ← h.lines, Event.line?]
    by_cases hother : other = number
    · subst hother
      rw [Activity.left_read_self, hleft]
      by_cases hstream : consumer = stream
      · subst hstream
        rw [Command.linesOn_read_self hconsumers]
        simp
      · rw [Command.linesOn_read_of_ne hstream]
        simp [hstream]
    · rw [Activity.left_read_of_ne hother]
      simp [Ne.symm hother]
  case ended =>
    intro other hjoined
    have hended := h.ended other hjoined
    by_cases hother : other = number
    · subst hother
      rw [hleft] at hended
      exact absurd (hended (consumer, line :: rest) (by simp)) (List.cons_ne_nil _ _)
    · rwa [Activity.left_read_of_ne hother]
  case joined_le => exact h.joined_le

theorem step (h : Sound events activity) (hstep : Step host activity event next) :
    Sound (events ++ [event]) next := by
  cases hstep with
  | started hlaunch => exact h.adopt hlaunch
  | notStarted hlaunch =>
      refine h.of_same_command ?_ rfl fun _ _ => rfl
      rw [Session.start_of_not_launched hlaunch]
  | waited hwait hended => exact h.join hwait hended
  | notWaited hwait =>
      exact h.of_same_command (Session.command_waitFor_of_error hwait) rfl fun _ _ => rfl
  | destroyed => exact h.of_same_command (Session.command_destroy _) rfl fun _ _ => rfl
  | handed hleft => exact h.read hleft

theorem runs {journal : Journal} {line : List String}
    (hruns : Runs host (.ready ⟨journal, .ofLine line⟩) events activity) :
    Sound events activity := by
  induction hruns with
  | none => exact ready journal line
  | step _ hstep ih => exact ih.step hstep

end Sound

/-! ### Waits -/

/-- Nothing is left to read or to deliver. -/
structure Quiet (activity : Activity) : Prop where
  left : ∀ number, ∀ reader ∈ activity.left number, reader.2 = []
  pending : activity.session.command.pending = []

section Quiet

variable {host : Host} {activity next : Activity} {event : Event}

theorem Sound.quiet_join {events : List Event} (h : Sound events activity) {exitCode : Int}
    (hwait : activity.session.waitFor.1 = .ok exitCode) (hended : activity.Ended) :
    Quiet activity.join where
  left := h.left_of_ended hended
  pending := by
    rw [Activity.join, (Session.waitFor_of_ok hwait).1]
    rfl

theorem Quiet.linesOn_left (h : Quiet activity) (number : Nat) (stream : Stream) :
    Command.linesOn (activity.left number) stream = [] := by
  rw [Command.linesOn, List.flatMap_eq_nil_iff]
  rintro ⟨which, lines⟩ hreader
  have hnone : lines = [] := h.left number _ hreader
  rw [hnone]
  exact ite_self _

theorem Quiet.step (h : Quiet activity) (hstep : Step host activity event next)
    (hevent : event.process? = none) :
    Quiet next ∧ (∀ number consumer line, event ≠ .handed number consumer line) ∧
      ∀ stream, next.session.command.delivered stream =
        activity.session.command.delivered stream := by
  have hkept (session : Session) (hcommand : session.command = activity.session.command) :
      Quiet { activity with session := session } ∧
        ∀ stream, session.command.delivered stream =
          activity.session.command.delivered stream := by
    rw [hcommand]
    exact ⟨⟨h.left, by rw [hcommand, h.pending]⟩, fun _ => rfl⟩
  cases hstep with
  | started hlaunch => cases hevent
  | notStarted hlaunch =>
      obtain ⟨hquiet, hdelivered⟩ := hkept (activity.session.start host).2
        (by rw [Session.start_of_not_launched hlaunch])
      exact ⟨hquiet, fun _ _ _ => Event.noConfusion, hdelivered⟩
  | waited hwait hended =>
      obtain ⟨hcommand, -⟩ := Session.waitFor_of_ok hwait
      refine ⟨⟨h.left, ?_⟩, fun _ _ _ => Event.noConfusion, fun stream => ?_⟩
      · rw [Activity.join, hcommand]
        rfl
      · rw [Activity.join, hcommand, Command.delivered_deliver, h.pending]
        exact List.append_nil _
  | notWaited hwait =>
      obtain ⟨hquiet, hdelivered⟩ := hkept _ (Session.command_waitFor_of_error hwait)
      exact ⟨hquiet, fun _ _ _ => Event.noConfusion, hdelivered⟩
  | destroyed =>
      obtain ⟨hquiet, hdelivered⟩ := hkept _ (Session.command_destroy activity.session)
      exact ⟨hquiet, fun _ _ _ => Event.noConfusion, hdelivered⟩
  | @handed number before after consumer line rest hleft =>
      have hended := h.left number
      rw [hleft] at hended
      exact absurd (hended (consumer, line :: rest) (by simp)) (List.cons_ne_nil _ _)

theorem Quiet.runs {first last : Activity} {events : List Event} (h : Quiet first)
    (hruns : Runs host first events last) (hevents : startedIn events = []) :
    Quiet last ∧ (∀ number consumer line, Event.handed number consumer line ∉ events) ∧
      ∀ stream, last.session.command.delivered stream =
        first.session.command.delivered stream := by
  induction hruns with
  | none => exact ⟨h, fun _ _ _ => List.not_mem_nil, fun _ => rfl⟩
  | step _ hstep ih =>
      rw [startedIn_append, List.append_eq_nil_iff] at hevents
      obtain ⟨hquiet, hhanded, hdelivered⟩ := ih hevents.1
      obtain ⟨hnext, hevent, hsame⟩ := hquiet.step hstep (Option.toList_eq_nil_iff.mp hevents.2)
      refine ⟨hnext, fun number consumer line hmem => ?_, fun stream => ?_⟩
      · rcases List.mem_append.mp hmem with hmem | hmem
        · exact hhanded number consumer line hmem
        · exact hevent number consumer line (List.mem_singleton.mp hmem).symm
      · rw [hsame, hdelivered]

end Quiet

/-! ### Readers end -/

section Ending

variable (host : Host) {activity : Activity}

theorem Runs.trans {host : Host} {first last : Activity} {events more : List Event}
    (h : Runs host first events activity) (hmore : Runs host activity more last) :
    Runs host first (events ++ more) last := by
  induction hmore with
  | none => rwa [List.append_nil]
  | step _ hstep ih =>
      rw [← List.append_assoc]
      exact ih.step hstep

theorem Activity.read_read (activity : Activity) (number : Nat)
    (readers others : List (Stream × List String)) :
    (activity.read number readers).read number others = activity.read number others := by
  simp only [Activity.read, Function.update_idem]

theorem exists_runs_reader {number : Nat} {before after : List (Stream × List String)}
    {consumer : Stream} {lines : List String}
    (h : activity.left number = before ++ (consumer, lines) :: after) :
    ∃ events, Runs host activity events
      (activity.read number (before ++ (consumer, []) :: after)) := by
  induction lines generalizing activity with
  | nil =>
      refine ⟨[], ?_⟩
      rw [Activity.read, ← h, Function.update_eq_self]
      exact .none
  | cons line rest ih =>
      obtain ⟨events, hruns⟩ := ih (Activity.left_read_self activity number _)
      rw [Activity.read_read] at hruns
      exact ⟨[] ++ [_] ++ events, (Runs.none.step (.handed h)).trans hruns⟩

theorem exists_runs_readers {number : Nat} (before readers : List (Stream × List String))
    (h : activity.left number = before ++ readers) :
    ∃ events, Runs host activity events
      (activity.read number (before ++ readers.map fun reader => (reader.1, []))) := by
  induction readers generalizing activity before with
  | nil =>
      refine ⟨[], ?_⟩
      rw [Activity.read, List.map_nil, ← h, Function.update_eq_self]
      exact .none
  | cons reader others ih =>
      obtain ⟨events, hruns⟩ := exists_runs_reader host h
      have hleft := Activity.left_read_self activity number
        (before ++ (reader.1, []) :: others)
      rw [List.append_cons] at hleft
      obtain ⟨more, hmore⟩ := ih _ hleft
      rw [Activity.read_read, ← List.append_cons, ← List.append_cons] at hmore
      exact ⟨events ++ more, hruns.trans hmore⟩

theorem exists_runs_below (activity : Activity) (bound : Nat) :
    ∃ events last, Runs host activity events last ∧ last.session = activity.session ∧
      last.joined = activity.joined ∧
        (∀ number < bound, ∀ reader ∈ last.left number, reader.2 = []) ∧
          ∀ number, bound ≤ number → last.left number = activity.left number := by
  induction bound with
  | zero =>
      exact ⟨[], activity, .none, rfl, rfl, fun _ h => absurd h (Nat.not_lt_zero _),
        fun _ _ => rfl⟩
  | succ bound ih =>
      obtain ⟨events, last, hruns, hsession, hjoined, hended, hleft⟩ := ih
      obtain ⟨more, hmore⟩ := exists_runs_readers host [] (last.left bound)
        (List.nil_append _).symm
      refine ⟨events ++ more, _, hruns.trans hmore, hsession, hjoined, ?_, ?_⟩
      · intro number hnumber
        by_cases hlast : number = bound
        · subst hlast
          rw [Activity.left_read_self, List.nil_append]
          intro reader hmem
          obtain ⟨other, -, rfl⟩ := List.mem_map.mp hmem
          rfl
        · rw [Activity.left_read_of_ne hlast]
          exact hended number (by omega)
      · intro number hnumber
        rw [Activity.left_read_of_ne (by omega)]
        exact hleft number (by omega)

/-- Whatever has happened, the readers can end, so that a wait is not held up for
ever. -/
theorem Sound.exists_ended {events : List Event} (h : Sound events activity) :
    ∃ more last, Runs host activity more last ∧ last.session = activity.session ∧ last.Ended := by
  obtain ⟨more, last, hruns, hsession, -, hended, hleft⟩ :=
    exists_runs_below host activity activity.processes.length
  refine ⟨more, last, hruns, hsession, fun number _ reader hreader => ?_⟩
  by_cases hnumber : number < activity.processes.length
  · exact hended number hnumber reader hreader
  · -- There are no readers beyond those of the processes.
    have hnone := h.lines number reader.1
    rw [linesFrom, List.getElem?_eq_none (Nat.le_of_not_lt hnumber)] at hnone
    have hlines := (List.append_eq_nil_iff.mp hnone).2
    rw [← hleft number (Nat.le_of_not_lt hnumber), Command.linesOn,
      List.flatMap_eq_nil_iff] at hlines
    simpa using hlines reader hreader

end Ending

/-! ### Built commands -/

theorem Builder.exists_ofLine_of_build {host : Host} {journal : Journal} {builder : Builder}
    {command : Command} (h : (builder.build host journal).1 = .ok command) :
    ∃ line, command = .ofLine line := by
  by_cases hcomplete : builder.Complete
  · exact ⟨_, ((build_eq_ok_iff hcomplete command).mp h).2⟩
  · exfalso
    rw [Complete, not_and_or, not_not, not_not] at hcomplete
    rcases hcomplete with ⟨hruntime, hscript, harguments⟩ | ⟨hscript, harguments⟩
    · rw [build_of_empty host journal builder hruntime hscript harguments] at h
      cases h
    · rw [build_of_no_script host journal builder hscript harguments] at h
      cases h

/-- The life cycle of a command that has been built, after any calls, and whatever
its readers have handed over in between.

A wait reports that nothing has been started exactly if no start has succeeded.  A
start or a wait that fails leaves the command and the readers as they were, and to
destroy the command asks the latest process once to be killed and changes nothing
else.  When a wait succeeds, it reports the exit code of the latest process, and
each consumer has been handed the lines of its stream of each process, once and in
order.  From then on nothing is handed over or delivered until another process is
started. -/
theorem life_cycle {host : Host} {built now : Journal} {choices : List Choice}
    {command : Command}
    (hbuilt : ((Builder.ofChoices choices).build host built).1 = .ok command)
    {events : List Event} {activity : Activity}
    (hruns : Runs host (.ready ⟨now, command⟩) events activity) :
    let session := activity.session
    (session.waitFor.1 = .error .notStarted ↔ startedIn events = []) ∧
      (∀ text next, Step host activity (.notStarted text) next →
        (session.start host).1 = .error (.host text) ∧
          ∃ journal, next = { activity with session := ⟨journal, session.command⟩ }) ∧
      (∀ error next, Step host activity (.notWaited error) next →
        session.waitFor.1 = .error error ∧
          ∃ journal, next = { activity with session := ⟨journal, session.command⟩ }) ∧
      (startedIn events = [] → session.destroy = session) ∧
      (∀ process, (startedIn events).getLast? = some process →
        session.kill.1 = process.kill session.journal ∧
          session.destroy =
            ⟨{ session.journal with killed := session.journal.killed + 1 }, session.command⟩) ∧
      ∀ exitCode next, Step host activity (.waited exitCode) next →
        session.waitFor.1 = .ok exitCode ∧
          (∃ process, (startedIn events).getLast? = some process ∧
            process.wait session.journal = .ok exitCode) ∧
          (∀ number stream,
            handedIn events number stream = linesFrom (startedIn events) number stream ∧
              ∀ process text, (startedIn events)[number]? = some process →
                process.stream? stream = some (Text.encode text) →
                  ∃ lines, Text.LinesOf text.toList lines ∧
                    handedIn events number stream = lines.map String.ofList) ∧
          (∀ stream, next.session.command.delivered stream =
            (startedIn events).flatMap fun process => process.lines stream) ∧
          ∀ more last, Runs host next more last → startedIn more = [] →
            (∀ number consumer line, Event.handed number consumer line ∉ more) ∧
              ∀ stream, last.session.command.delivered stream =
                next.session.command.delivered stream := by
  intro session
  obtain ⟨line, rfl⟩ := Builder.exists_ofLine_of_build hbuilt
  have hsound : Sound events activity := .runs hruns
  have hlatest : session.command.process? = (startedIn events).getLast? := by
    rw [← hsound.processes]
    exact hsound.latest
  refine ⟨?_, ?_, ?_, ?_, ?_, ?_⟩
  · rw [Session.waitFor_eq_notStarted_iff, hlatest, List.getLast?_eq_none_iff]
  · intro text next hstep
    cases hstep with
    | notStarted hlaunch =>
        rw [Session.start_of_not_launched hlaunch]
        exact ⟨rfl, _, rfl⟩
  · intro error next hstep
    cases hstep with
    | notWaited hwait =>
        refine ⟨hwait, session.waitFor.2.journal, ?_⟩
        rw [← Session.command_waitFor_of_error hwait]
  · intro hnone
    rw [hnone] at hlatest
    exact Session.destroy_of_none hlatest
  · intro process hprocess
    rw [Session.destroy, Session.kill_of_some (hlatest.trans hprocess)]
    exact ⟨rfl, rfl⟩
  · intro exitCode next hstep
    cases hstep with
    | waited hwait hended =>
        have hjoined : Sound (events ++ [.waited exitCode]) activity.join :=
          hsound.join hwait hended
        have hquiet : Quiet activity.join := hsound.quiet_join hwait hended
        obtain ⟨-, process, hprocess, hexit⟩ := Session.waitFor_of_ok hwait
        refine ⟨hwait, ⟨process, hlatest.symm.trans hprocess, hexit⟩, ?_, ?_, ?_⟩
        · intro number stream
          have hhanded :
              handedIn events number stream = linesFrom (startedIn events) number stream := by
            have hleft : Command.linesOn (activity.left number) stream = [] :=
              hquiet.linesOn_left number stream
            rw [← hsound.processes, ← hsound.lines, hleft, List.append_nil]
          refine ⟨hhanded, fun process text hstarted htext => ?_⟩
          obtain ⟨lines, hlines, hstream⟩ := exists_linesOf_streamLines text
          refine ⟨lines, hlines, ?_⟩
          rw [hhanded, linesFrom, hstarted, Option.map_some, Option.getD_some,
            StartedProcess.lines, htext, Option.map_some, Option.getD_some, hstream]
        · intro stream
          rw [hjoined.delivered, ← hsound.processes]
          exact congrArg _ (List.take_length)
        · intro more last hmore hnone
          obtain ⟨-, hhanded, hdelivered⟩ := hquiet.runs hmore hnone
          exact ⟨hhanded, hdelivered⟩

/-- A process that prints the lines `a` and `b` and the error `c`, which can be
waited for from the second time on and cannot be killed. -/
def busyProcess : StartedProcess where
  output? := some [97, 10, 98, 10]
  errors? := some [99]
  wait journal := if journal.waited = 0 then .error "busy" else .ok 3
  kill _ := .error "gone"

/-- A host on which every command line starts a process that writes to both streams. -/
def busyHost : Host where
  fileExists _ := false
  launch _ _ := .ok busyProcess

/-- A wait fails, and the readers of two processes take turns. -/
def busyEvents : List Event :=
  [.started busyProcess, .handed 0 .errors "c", .notWaited (.host "busy"), .started busyProcess,
    .handed 1 .output "a", .handed 0 .output "a", .handed 0 .output "b", .handed 1 .errors "c",
    .handed 1 .output "b"]

theorem exists_runs_busyEvents (line : List String) :
    ∃ activity, Runs busyHost (.ready ⟨.blank, .ofLine line⟩) busyEvents activity ∧
      activity.session.waitFor.1 = .ok 3 ∧ activity.Ended := by
  let start : Activity := .ready ⟨.blank, .ofLine line⟩
  let first : Activity := start.adopt busyHost busyProcess
  let second : Activity := first.read 0 [(.output, ["a", "b"]), (.errors, [])]
  let third : Activity := { second with session := second.session.waitFor.2 }
  let fourth : Activity := third.adopt busyHost busyProcess
  let fifth : Activity := fourth.read 1 [(.output, ["b"]), (.errors, ["c"])]
  let sixth : Activity := fifth.read 0 [(.output, ["b"]), (.errors, [])]
  let seventh : Activity := sixth.read 0 [(.output, []), (.errors, [])]
  let eighth : Activity := seventh.read 1 [(.output, ["b"]), (.errors, [])]
  let ninth : Activity := eighth.read 1 [(.output, []), (.errors, [])]
  have hfirst : Step busyHost start (.started busyProcess) first := .started rfl
  have hsecond : Step busyHost first (.handed 0 .errors "c") second :=
    @Step.handed _ first 0 [(.output, ["a", "b"])] [] .errors "c" [] rfl
  have hthird : Step busyHost second (.notWaited (.host "busy")) third := .notWaited rfl
  have hfourth : Step busyHost third (.started busyProcess) fourth := .started rfl
  have hfifth : Step busyHost fourth (.handed 1 .output "a") fifth :=
    @Step.handed _ fourth 1 [] [(.errors, ["c"])] .output "a" ["b"] rfl
  have hsixth : Step busyHost fifth (.handed 0 .output "a") sixth :=
    @Step.handed _ fifth 0 [] [(.errors, [])] .output "a" ["b"] rfl
  have hseventh : Step busyHost sixth (.handed 0 .output "b") seventh :=
    @Step.handed _ sixth 0 [] [(.errors, [])] .output "b" [] rfl
  have heighth : Step busyHost seventh (.handed 1 .errors "c") eighth :=
    @Step.handed _ seventh 1 [(.output, ["b"])] [] .errors "c" [] rfl
  have hninth : Step busyHost eighth (.handed 1 .output "b") ninth :=
    @Step.handed _ eighth 1 [] [(.errors, [])] .output "b" [] rfl
  have hruns := ((((((((Runs.none.step hfirst).step hsecond).step hthird).step hfourth).step
    hfifth).step hsixth).step hseventh).step heighth).step hninth
  refine ⟨ninth, hruns, rfl, ?_⟩
  have hread : ∀ reader ∈ [(Stream.output, ([] : List String)), (Stream.errors, [])],
      reader.2 = [] := by simp
  rintro (_ | _ | number) - reader hreader
  · exact hread reader hreader
  · exact hread reader hreader
  · cases hreader

/-- The lines of both processes are handed over, those of the first one too, whose
wait has failed. -/
theorem life_cycle_of_busy_host :
    ((Builder.ofChoices [.script "a.js"]).build busyHost .blank).1 =
        .ok (.ofLine ["node", "a.js"]) ∧
      ∃ activity, Runs busyHost (.ready ⟨.blank, .ofLine ["node", "a.js"]⟩) busyEvents activity ∧
        activity.session.waitFor.1 = .ok 3 ∧
        handedIn busyEvents 0 .output = ["a", "b"] ∧
        activity.join.session.command.delivered .output = ["a", "b", "a", "b"] := by
  have hbuilt : ((Builder.ofChoices [.script "a.js"]).build busyHost .blank).1 =
      .ok (.ofLine ["node", "a.js"]) := rfl
  obtain ⟨activity, hruns, hwait, hended⟩ := exists_runs_busyEvents ["node", "a.js"]
  obtain ⟨-, -, -, -, -, hwaited⟩ := life_cycle hbuilt hruns
  obtain ⟨-, -, hhanded, hdelivered, -⟩ := hwaited 3 _ (.waited hwait hended)
  refine ⟨hbuilt, activity, hruns, hwait, ?_, ?_⟩
  · rw [(hhanded 0 .output).1]
    rfl
  · rw [hdelivered]
    rfl

end ScriptKinds.Launcher
