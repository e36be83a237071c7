namespace ScriptKinds.Launcher

/-- What can go wrong with a command. -/
inductive CommandError where
  /-- There is nothing to run. -/
  | missingArguments
  /-- There are arguments for a script, but there is no script. -/
  | scriptArgumentsWithoutScript
  | incompatibleVersion (required : Nat) (actual : String)
  | unparseableVersion (actual : String)
  | versionCheckFailed (executable : String) (exitCode : Int)
  | notStarted
  /-- The host could not start the process or wait for it. -/
  | host (text : String)
deriving DecidableEq, Repr, Inhabited

namespace CommandError

def name : CommandError → String
  | missingArguments => "MissingArguments"
  | scriptArgumentsWithoutScript => "ScriptArgumentsWithoutScript"
  | incompatibleVersion _ _ => "IncompatibleVersion"
  | unparseableVersion _ => "UnparseableVersion"
  | versionCheckFailed _ _ => "VersionCheckFailed"
  | notStarted => "NotStarted"
  | host _ => "Io"

/-- What is said of an error. -/
def message : CommandError → String
  | missingArguments =>
      "missing arguments for Node.js: expected runtime arguments, a script or script arguments"
  | scriptArgumentsWithoutScript => "no script provided, but script arguments were found"
  | incompatibleVersion required actual =>
      "only Node.js v" ++ toString required ++ " or later is supported, got `" ++ actual ++ "`"
  | unparseableVersion actual =>
      "failed to parse Node.js version, expected `v<major>.<minor>.<patch>`, got `" ++ actual ++
        "`"
  | versionCheckFailed executable exitCode =>
      "`" ++ executable ++ " -v` exited with code " ++ toString exitCode ++
        ", unable to determine the Node.js version"
  | notStarted => "Node.js process has not been started"
  | host text => "Node.js process failed: " ++ text

end CommandError

end ScriptKinds.Launcher
