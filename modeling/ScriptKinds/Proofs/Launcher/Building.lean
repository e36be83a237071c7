import Mathlib.Data.List.Basic
import Mathlib.Data.List.Induction
import ScriptKinds.Launcher.Builder

namespace ScriptKinds.Launcher

/-- The parts of a command that choices are about. -/
inductive Part where
  | minimumVersion | settings | runtime | script | scriptArguments
deriving DecidableEq, Repr, Inhabited

namespace Choice

/-- The part of a command that a choice is about. -/
def part : Choice → Part
  | .minimumVersion _ => .minimumVersion
  | .settings _ => .settings
  | .heapLimit _ | .runtimeArguments _ => .runtime
  | .script _ => .script
  | .scriptArguments _ => .scriptArguments

/-- The minimum version that a choice sets. -/
def minimumVersion? : Choice → Option Nat
  | .minimumVersion major => some major
  | _ => none

/-- The settings that a choice sets. -/
def settings? : Choice → Option Settings
  | .settings values => some values
  | _ => none

/-- The arguments that a choice adds for the runtime. -/
def forRuntime : Choice → List String
  | .heapLimit megabytes => ["--max-old-space-size=" ++ toString megabytes]
  | .runtimeArguments arguments => arguments
  | _ => []

/-- The script that a choice sets. -/
def script? : Choice → Option String
  | .script path => some path
  | _ => none

/-- The arguments that a choice adds for the script. -/
def forScript : Choice → List String
  | .scriptArguments arguments => arguments
  | _ => []

end Choice

/-! ### Requests to a host -/

/-- The journal after a look at each of some files. -/
def Journal.queryAll (journal : Journal) (paths : List String) : Journal :=
  { journal with queried := journal.queried ++ paths }

@[simp]
theorem Journal.queryAll_started (journal : Journal) (paths : List String) :
    (journal.queryAll paths).started = journal.started := rfl

/-- What a process has written to its output when it has ended. -/
def StartedProcess.printed (process : StartedProcess) : String :=
  String.join ((process.output?.map streamLines).getD [])

theorem Command.output_deliver_adopt (line : List String) (process : StartedProcess) :
    String.join ((Command.ofLine line).adopt process).deliver.output = process.printed := by
  obtain ⟨output?, errors?, wait, kill⟩ := process
  rcases output? with _ | output <;> rcases errors? with _ | errors <;>
    simp [ofLine, adopt, deliver, pendingOn, readersOf, StartedProcess.printed]

namespace Builder

/-! ### The parts that choices gather -/

/-- The last version, the last settings, the last script and all arguments of
some choices. -/
def gathered (choices : List Choice) : Builder where
  minimumVersion? := (choices.filterMap Choice.minimumVersion?).getLast?
  settings? := (choices.filterMap Choice.settings?).getLast?
  runtimeArguments := choices.flatMap Choice.forRuntime
  script? := (choices.filterMap Choice.script?).getLast?
  scriptArguments := choices.flatMap Choice.forScript

theorem ofChoices_append (choices : List Choice) (choice : Choice) :
    ofChoices (choices ++ [choice]) = (ofChoices choices).choose choice := by
  simp [ofChoices]

theorem gathered_append (choices : List Choice) (choice : Choice) :
    gathered (choices ++ [choice]) = (gathered choices).choose choice := by
  cases choice <;>
    simp [gathered, choose, Choice.minimumVersion?, Choice.settings?, Choice.forRuntime,
      Choice.script?, Choice.forScript]

theorem ofChoices_eq_gathered (choices : List Choice) : ofChoices choices = gathered choices := by
  induction choices using List.reverseRecOn with
  | nil => rfl
  | append_singleton choices choice ih => rw [ofChoices_append, gathered_append, ih]

section Reordering

variable {choices others : List Choice} {part : Part}

theorem flatMap_congr_part {α : Type} (read : Choice → List α)
    (silent : ∀ choice : Choice, choice.part ≠ part → read choice = [])
    (same : others.filter (·.part = part) = choices.filter (·.part = part)) :
    others.flatMap read = choices.flatMap read := by
  have restricted : ∀ list : List Choice,
      (list.filter (·.part = part)).flatMap read = list.flatMap read := by
    intro list
    induction list with
    | nil => rfl
    | cons choice list ih =>
        by_cases h : choice.part = part
        · simp [h, ih]
        · simp [h, ih, silent choice h]
  rw [← restricted others, same, restricted]

theorem filterMap_congr_part {α : Type} (read : Choice → Option α)
    (silent : ∀ choice : Choice, choice.part ≠ part → read choice = none)
    (same : others.filter (·.part = part) = choices.filter (·.part = part)) :
    others.filterMap read = choices.filterMap read := by
  rw [List.filterMap_eq_flatMap_toList, List.filterMap_eq_flatMap_toList]
  exact flatMap_congr_part _ (fun choice h => by rw [silent choice h, Option.toList_none]) same

theorem gathered_congr
    (same : ∀ part, others.filter (·.part = part) = choices.filter (·.part = part)) :
    gathered others = gathered choices := by
  have version := filterMap_congr_part Choice.minimumVersion?
    (by rintro (_ | _ | _ | _ | _ | _) h <;> first | rfl | exact absurd rfl h)
    (same .minimumVersion)
  have settings := filterMap_congr_part Choice.settings?
    (by rintro (_ | _ | _ | _ | _ | _) h <;> first | rfl | exact absurd rfl h) (same .settings)
  have runtime := flatMap_congr_part Choice.forRuntime
    (by rintro (_ | _ | _ | _ | _ | _) h <;> first | rfl | exact absurd rfl h) (same .runtime)
  have script := filterMap_congr_part Choice.script?
    (by rintro (_ | _ | _ | _ | _ | _) h <;> first | rfl | exact absurd rfl h) (same .script)
  have arguments := flatMap_congr_part Choice.forScript
    (by rintro (_ | _ | _ | _ | _ | _) h <;> first | rfl | exact absurd rfl h)
    (same .scriptArguments)
  simp only [gathered, version, settings, runtime, script, arguments]

end Reordering

section Building

variable (host : Host) (journal : Journal) (builder : Builder)

/-! ### The executable -/

/-- The paths that a search for the first one that exists looks up. -/
def lookedUp (paths : List String) : List String :=
  paths.takeWhile (fun path => !host.fileExists path) ++ (paths.find? host.fileExists).toList

theorem firstExisting?_eq (paths : List String) :
    firstExisting? host paths journal =
      (paths.find? host.fileExists, journal.queryAll (lookedUp host paths)) := by
  induction paths generalizing journal with
  | nil => simp [firstExisting?, lookedUp, Journal.queryAll]
  | cons path paths ih =>
      by_cases h : host.fileExists path
      · simp [firstExisting?, lookedUp, h, Journal.query, Journal.queryAll]
      · simp [firstExisting?, lookedUp, h, ih, Journal.query, Journal.queryAll]

/-- The paths that the settings of a builder name, the most important one
first. -/
def offered : List String :=
  executableKeys.filterMap fun key => builder.settings?.bind fun settings => settings key

/-- The value of the first key that is set to a path that exists, or the default
executable. -/
def chosen : String :=
  (executableKeys.findSome? fun key =>
    (builder.settings?.bind fun settings => settings key).filter host.fileExists).getD
      defaultExecutable

theorem find?_filterMap_eq_findSome? {α β : Type} (read : α → Option β) (p : β → Bool)
    (keys : List α) :
    (keys.filterMap read).find? p = keys.findSome? fun key => (read key).filter p := by
  induction keys with
  | nil => rfl
  | cons key keys ih =>
      rcases h : read key with _ | value
      · simp [h, ih]
      · by_cases hp : p value <;> simp [h, hp, ih, Option.filter]

theorem executable_eq :
    builder.executable host journal =
      (chosen host builder, journal.queryAll (lookedUp host builder.offered)) := by
  rw [chosen, ← find?_filterMap_eq_findSome?, ← offered]
  rcases h : builder.settings? with _ | settings
  · have none_set : executableKeys.filterMap (fun _ => (none : Option String)) = [] := by simp
    simp [executable, offered, lookedUp, Journal.queryAll, h, none_set]
  · simp [executable, offered, firstExisting?_eq, h]

/-! ### The version check -/

/-- A line starts a process that ends without an error, and that has then
printed the text. -/
def Prints (line : List String) (text : String) : Prop :=
  ∃ process, host.launch journal line = .ok process ∧
    process.wait (journal.start line) = .ok 0 ∧
    String.ofList (Text.trim process.printed.toList) = text

/-- Why the executable does not have the version that is required. -/
inductive Refuses (executable : String) (required : Nat) : CommandError → Prop where
  | launch {text : String} (h : host.launch journal [executable, "-v"] = .error text) :
      Refuses executable required (.host text)
  | wait {process : StartedProcess} {text : String}
      (h : host.launch journal [executable, "-v"] = .ok process)
      (hw : process.wait (journal.start [executable, "-v"]) = .error text) :
      Refuses executable required (.host text)
  | exit {process : StartedProcess} {code : Int}
      (h : host.launch journal [executable, "-v"] = .ok process)
      (hw : process.wait (journal.start [executable, "-v"]) = .ok code) (hc : code ≠ 0) :
      Refuses executable required (.versionCheckFailed executable code)
  | version {text : String} {error : CommandError}
      (h : Prints host journal [executable, "-v"] text)
      (hv : checkVersion text required = .error error) :
      Refuses executable required error

section Query

variable {host journal} {executable : String}

theorem queryVersion_of_not_launched {text : String}
    (h : host.launch journal [executable, "-v"] = .error text) :
    queryVersion host executable journal =
      (.error (.host text), journal.start [executable, "-v"]) := by
  simp [queryVersion, Session.start, Command.ofLine, h]

theorem queryVersion_of_not_waited {process : StartedProcess} {text : String}
    (h : host.launch journal [executable, "-v"] = .ok process)
    (hw : process.wait (journal.start [executable, "-v"]) = .error text) :
    queryVersion host executable journal =
      (.error (.host text), (journal.start [executable, "-v"]).wait) := by
  simp only [queryVersion, Session.start, Command.ofLine, h, Session.waitFor, Command.adopt, hw,
    Journal.wait]

theorem queryVersion_of_waited {process : StartedProcess} {code : Int}
    (h : host.launch journal [executable, "-v"] = .ok process)
    (hw : process.wait (journal.start [executable, "-v"]) = .ok code) :
    queryVersion host executable journal =
      (if code = 0 then .ok (String.ofList (Text.trim process.printed.toList))
        else .error (.versionCheckFailed executable code),
        (journal.start [executable, "-v"]).wait) := by
  have printed := Command.output_deliver_adopt [executable, "-v"] process
  by_cases hc : code = 0
  · simp only [queryVersion, Session.start, h, Session.waitFor, Command.adopt, Command.ofLine, hw,
      hc, if_true, Journal.wait] at printed ⊢
    rw [printed]
  · simp only [queryVersion, Session.start, h, Session.waitFor, Command.adopt, Command.ofLine, hw,
      hc, if_false, Journal.wait]

theorem queryVersion_started :
    (queryVersion host executable journal).2.started =
      journal.started ++ [[executable, "-v"]] := by
  rcases h : host.launch journal [executable, "-v"] with text | process
  · rw [queryVersion_of_not_launched h]
    rfl
  · rcases hw : process.wait (journal.start [executable, "-v"]) with text | code
    · rw [queryVersion_of_not_waited h hw]
      rfl
    · rw [queryVersion_of_waited h hw]
      rfl

end Query

section Minimum

variable {host journal builder} {required : Nat} (set : builder.minimumVersion? = some required)
  {executable : String}

include set

theorem checkMinimum_started :
    (checkMinimum host builder executable journal).2.started =
      journal.started ++ [[executable, "-v"]] := by
  rw [← @queryVersion_started host journal executable]
  simp only [checkMinimum, set]
  split <;> rename_i h <;> rw [h]

theorem checkMinimum_eq_ok_iff :
    (checkMinimum host builder executable journal).1 = .ok () ↔
      ∃ text, Prints host journal [executable, "-v"] text ∧
        checkVersion text required = .ok () := by
  simp only [checkMinimum, set, Prints]
  rcases h : host.launch journal [executable, "-v"] with text | process
  · simp [queryVersion_of_not_launched h]
  · rcases hw : process.wait (journal.start [executable, "-v"]) with text | code
    · simp [queryVersion_of_not_waited h hw, hw]
    · by_cases hc : code = 0 <;> simp [queryVersion_of_waited h hw, hw, hc]

theorem checkMinimum_eq_error_iff (error : CommandError) :
    (checkMinimum host builder executable journal).1 = .error error ↔
      Refuses host journal executable required error := by
  simp only [checkMinimum, set]
  constructor
  · intro he
    rcases h : host.launch journal [executable, "-v"] with text | process
    · rw [queryVersion_of_not_launched h] at he
      obtain rfl : .host text = error := by simpa using he
      exact .launch h
    · rcases hw : process.wait (journal.start [executable, "-v"]) with text | code
      · rw [queryVersion_of_not_waited h hw] at he
        obtain rfl : .host text = error := by simpa using he
        exact .wait h hw
      · rw [queryVersion_of_waited h hw] at he
        by_cases hc : code = 0
        · subst hc
          exact .version ⟨process, h, hw, rfl⟩ (by simpa using he)
        · obtain rfl : .versionCheckFailed executable code = error := by simpa [hc] using he
          exact .exit h hw hc
  · rintro (h | ⟨h, hw⟩ | ⟨h, hw, hc⟩ | ⟨⟨process, h, hw, rfl⟩, hv⟩)
    · rw [queryVersion_of_not_launched h]
    · rw [queryVersion_of_not_waited h hw]
    · rw [queryVersion_of_waited h hw, if_neg hc]
    · simp only [queryVersion_of_waited h hw, if_true]
      exact hv

end Minimum

/-! ### Builds -/

/-- A builder has something to run, and a script for any script arguments. -/
def Complete : Prop :=
  ¬ (builder.runtimeArguments = [] ∧ builder.script? = none ∧ builder.scriptArguments = []) ∧
    ¬ (builder.script? = none ∧ builder.scriptArguments ≠ [])

theorem build_of_empty (hr : builder.runtimeArguments = []) (hs : builder.script? = none)
    (ha : builder.scriptArguments = []) :
    builder.build host journal = (.error .missingArguments, journal) := by
  simp only [build, hr, hs, ha]

theorem build_of_no_script (hs : builder.script? = none) (ha : builder.scriptArguments ≠ []) :
    builder.build host journal = (.error .scriptArgumentsWithoutScript, journal) := by
  obtain ⟨argument, arguments, ha⟩ := List.exists_cons_of_ne_nil ha
  rcases hr : builder.runtimeArguments with _ | ⟨argument, arguments⟩ <;>
    simp only [build, hr, hs, ha]

/-- The journal when the executable has been chosen. -/
def chosenFrom : Journal :=
  journal.queryAll (lookedUp host builder.offered)

theorem build_of_complete (complete : builder.Complete) :
    builder.build host journal =
      ((checkMinimum host builder (chosen host builder) (chosenFrom host journal builder)).1.map
        fun _ => .ofLine (builder.commandLine (chosen host builder)),
      (checkMinimum host builder (chosen host builder) (chosenFrom host journal builder)).2) := by
  rw [build, executable_eq, ← chosenFrom]
  split
  · rename_i hr hs ha
    exact absurd ⟨hr, hs, ha⟩ complete.1
  · rename_i hs ha
    exact absurd ⟨hs, by simp [ha]⟩ complete.2
  · rcases h : checkMinimum host builder (chosen host builder) (chosenFrom host journal builder) with
      ⟨error | _, journal⟩
    · simp only [h, Except.map]
    · simp only [h, Except.map]

section Complete

variable {host journal builder} (complete : builder.Complete)

include complete

theorem build_eq_ok_iff (command : Command) :
    (builder.build host journal).1 = .ok command ↔
      (checkMinimum host builder (chosen host builder) (chosenFrom host journal builder)).1 =
        .ok () ∧ command = .ofLine (builder.commandLine (chosen host builder)) := by
  rw [build_of_complete host journal builder complete]
  rcases (checkMinimum host builder (chosen host builder) (chosenFrom host journal builder)).1 with
    error | _
  · simp [Except.map]
  · simp [Except.map, eq_comm]

theorem build_eq_error_iff (error : CommandError) :
    (builder.build host journal).1 = .error error ↔
      (checkMinimum host builder (chosen host builder) (chosenFrom host journal builder)).1 =
        .error error := by
  rw [build_of_complete host journal builder complete]
  rcases (checkMinimum host builder (chosen host builder) (chosenFrom host journal builder)).1 with
    error | _ <;> simp [Except.map]

theorem build_journal :
    (builder.build host journal).2 =
      (checkMinimum host builder (chosen host builder) (chosenFrom host journal builder)).2 := by
  rw [build_of_complete host journal builder complete]

end Complete

end Building

/-- The outcome of a build depends on the gathered parts alone.  It is an error
without any request if a part is missing.  Else the command runs the chosen
executable.  Without a minimum version no process is started, and with one the
chosen executable is asked for its version once. -/
theorem build_ofChoices (host : Host) (journal : Journal) (choices : List Choice) :
    let builder := gathered choices
    let executable := chosen host builder
    let outcome := (ofChoices choices).build host journal
    (∀ others, gathered others = builder →
      (ofChoices others).build host journal = outcome) ∧
    (∀ others, (∀ part, others.filter (·.part = part) = choices.filter (·.part = part)) →
      gathered others = builder) ∧
    (builder.runtimeArguments = [] → builder.script? = none → builder.scriptArguments = [] →
      outcome = (.error .missingArguments, journal)) ∧
    (builder.script? = none → builder.scriptArguments ≠ [] →
      outcome = (.error .scriptArgumentsWithoutScript, journal)) ∧
    (builder.Complete →
      (∀ command, outcome.1 = .ok command →
        command = .ofLine (executable :: builder.runtimeArguments ++ builder.script?.toList ++
          builder.scriptArguments)) ∧
      (builder.minimumVersion? = none →
        (∃ command, outcome.1 = .ok command) ∧ outcome.2.started = journal.started) ∧
      ∀ required, builder.minimumVersion? = some required →
        outcome.2.started = journal.started ++ [[executable, "-v"]] ∧
        ((∃ command, outcome.1 = .ok command) ↔
          ∃ text, Prints host (chosenFrom host journal builder) [executable, "-v"] text ∧
            checkVersion text required = .ok ()) ∧
        ∀ error, outcome.1 = .error error ↔
          Refuses host (chosenFrom host journal builder) executable required error) := by
  intro builder executable outcome
  have outcome_eq : outcome = builder.build host journal := by
    simp only [outcome, ofChoices_eq_gathered, builder]
  refine ⟨?_, ?_, ?_, ?_, ?_⟩
  · intro others same
    rw [outcome_eq, ofChoices_eq_gathered, same]
  · intro others same
    exact gathered_congr same
  · intro hr hs ha
    rw [outcome_eq, build_of_empty host journal builder hr hs ha]
  · intro hs ha
    rw [outcome_eq, build_of_no_script host journal builder hs ha]
  · intro complete
    rw [outcome_eq]
    refine ⟨?_, ?_, ?_⟩
    · intro command h
      exact ((build_eq_ok_iff complete command).1 h).2
    · intro unset
      refine ⟨⟨_, (build_eq_ok_iff complete _).2 ⟨?_, rfl⟩⟩, ?_⟩
      · simp [checkMinimum, unset]
      · simp [build_journal complete, checkMinimum, unset, chosenFrom]
    · intro required set
      refine ⟨?_, ?_, ?_⟩
      · rw [build_journal complete, checkMinimum_started set]
        rfl
      · rw [← checkMinimum_eq_ok_iff set]
        constructor
        · rintro ⟨command, h⟩
          exact ((build_eq_ok_iff complete command).1 h).1
        · intro h
          exact ⟨_, (build_eq_ok_iff complete _).2 ⟨h, rfl⟩⟩
      · intro error
        rw [build_eq_error_iff complete, checkMinimum_eq_error_iff set]

/-- A host on which every process prints the version 20.1.0. -/
def versionHost : Host where
  fileExists path := path == "/opt/node"
  launch _ _ := .ok
    { output? := some [118, 50, 48, 46, 49, 46, 48, 10]
      errors? := none
      wait := fun _ => .ok 0
      kill := fun _ => .ok () }

theorem build_twenty_suffices :
    let settings : Settings := .ofList [("sonar.typescript.node", "/opt/node")]
    let outcome := (ofChoices [.script "a.js", .minimumVersion 18, .settings settings]).build
      versionHost .blank
    (∃ command, outcome.1 = .ok command) ∧ outcome.2.started = [["/opt/node", "-v"]] := by
  intro settings outcome
  obtain ⟨-, -, -, -, whole⟩ :=
    build_ofChoices versionHost .blank [.script "a.js", .minimumVersion 18, .settings settings]
  obtain ⟨-, -, checked⟩ := whole (by simp [Complete, gathered, Choice.script?])
  obtain ⟨started, accepted, -⟩ := checked 18 rfl
  refine ⟨accepted.2 ⟨"v20.1.0", ⟨_, rfl, rfl, ?_⟩, ?_⟩, ?_⟩
  · rfl
  · rfl
  · rw [started]
    rfl

end Builder

end ScriptKinds.Launcher
