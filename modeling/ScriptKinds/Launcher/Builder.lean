import ScriptKinds.Launcher.Command
import ScriptKinds.Launcher.Settings
import ScriptKinds.Launcher.Version
import ScriptKinds.Text.Trim

/-!
Building commands.

A builder gathers the parts of a command line.  Building checks that the parts
fit together, chooses the executable and, if a minimum version is set, asks the
executable for its version.
-/

namespace ScriptKinds.Launcher

/-- What has been chosen so far for a command. -/
structure Builder where
  minimumVersion? : Option Nat
  settings? : Option Settings
  runtimeArguments : List String
  script? : Option String
  scriptArguments : List String

/-- A choice about one part of a command. -/
inductive Choice where
  | minimumVersion (major : Nat)
  | settings (settings : Settings)
  /-- The limit of the runtime's memory for old objects, in megabytes. -/
  | heapLimit (megabytes : Nat)
  | runtimeArguments (arguments : List String)
  | script (path : String)
  | scriptArguments (arguments : List String)

namespace Builder

def blank : Builder :=
  ⟨none, none, [], none, []⟩

/-- The builder after a choice.  Arguments add up, and any other choice
replaces an earlier one of its sort. -/
def choose (builder : Builder) : Choice → Builder
  | .minimumVersion major => { builder with minimumVersion? := some major }
  | .settings settings => { builder with settings? := some settings }
  | .heapLimit megabytes =>
      { builder with
        runtimeArguments :=
          builder.runtimeArguments ++ ["--max-old-space-size=" ++ toString megabytes] }
  | .runtimeArguments arguments =>
      { builder with runtimeArguments := builder.runtimeArguments ++ arguments }
  | .script path => { builder with script? := some path }
  | .scriptArguments arguments =>
      { builder with scriptArguments := builder.scriptArguments ++ arguments }

def ofChoices (choices : List Choice) : Builder :=
  choices.foldl choose blank

/-- The executable that is looked up along the host's path. -/
def defaultExecutable : String := "node"

/-- The keys of the settings that name an executable, the most important one
first. -/
def executableKeys : List String :=
  ["sonar.nodejs.executable", "sonar.typescript.node", "sonar.css.node"]

/-- The first of some paths that exists.  The paths behind it are not looked up. -/
def firstExisting? (host : Host) : List String → Journal → Option String × Journal
  | [], journal => (none, journal)
  | path :: paths, journal =>
      if host.fileExists path then (some path, journal.query path)
      else firstExisting? host paths (journal.query path)

/-- The first executable in the settings that exists, or the default one. -/
def executable (host : Host) (builder : Builder) (journal : Journal) : String × Journal :=
  match builder.settings? with
  | none => (defaultExecutable, journal)
  | some settings =>
      match firstExisting? host (executableKeys.filterMap settings) journal with
      | (path?, journal) => (path?.getD defaultExecutable, journal)

/-- The command line with an executable in front. -/
def commandLine (builder : Builder) (executable : String) : List String :=
  executable :: builder.runtimeArguments ++ builder.script?.toList ++ builder.scriptArguments

/-- What an executable prints about its version, without the blanks around it. -/
def queryVersion (host : Host) (executable : String) (journal : Journal) :
    Except CommandError String × Journal :=
  match Session.start host ⟨journal, .ofLine [executable, "-v"]⟩ with
  | (.error error, session) => (.error error, session.journal)
  | (.ok _, session) =>
      match session.waitFor with
      | (.error error, session) => (.error error, session.journal)
      | (.ok exitCode, session) =>
          if exitCode = 0 then
            let printed := String.join session.command.output
            (.ok (String.ofList (Text.trim printed.toList)), session.journal)
          else (.error (.versionCheckFailed executable exitCode), session.journal)

/-- Checks that an executable has the minimum version, if one is set. -/
def checkMinimum (host : Host) (builder : Builder) (executable : String) (journal : Journal) :
    Except CommandError Unit × Journal :=
  match builder.minimumVersion? with
  | none => (.ok (), journal)
  | some required =>
      match queryVersion host executable journal with
      | (.error error, journal) => (.error error, journal)
      | (.ok actual, journal) => (checkVersion actual required, journal)

/-- The command of a builder, ready to be started. -/
def build (host : Host) (builder : Builder) (journal : Journal) :
    Except CommandError Command × Journal :=
  match builder.runtimeArguments, builder.script?, builder.scriptArguments with
  | [], none, [] => (.error .missingArguments, journal)
  | _, none, _ :: _ => (.error .scriptArgumentsWithoutScript, journal)
  | _, _, _ =>
      match builder.executable host journal with
      | (executable, journal) =>
          match checkMinimum host builder executable journal with
          | (.error error, journal) => (.error error, journal)
          | (.ok _, journal) => (.ok (.ofLine (builder.commandLine executable)), journal)

end Builder

end ScriptKinds.Launcher
