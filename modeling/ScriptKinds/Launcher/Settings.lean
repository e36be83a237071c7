import ScriptKinds.Launcher.Environment

namespace ScriptKinds.Launcher

abbrev Settings := String → Option String

namespace Settings

/-- The settings in a list, of which the first for a key counts. -/
def ofList (entries : List (String × String)) : Settings :=
  fun key => entries.lookup key

/-- The stem of the names of environment variables unless another is chosen. -/
def defaultStem : String := "JSKINDS"

/-- The environment variable of a key: a stem and the key in capitals, with an
underscore for every character that is no ASCII letter or digit. -/
def variableName (stem key : String) : String :=
  stem ++ "_" ++ key.map fun c => if c.isAlphanum then c.toUpper else '_'

/-- The settings in environment variables.  An empty variable counts as unset. -/
def ofEnvironment (stem : String) (environment : Environment) : Settings :=
  fun key => (environment.get? (variableName stem key)).filter fun value => !value.isEmpty

end Settings

end ScriptKinds.Launcher
