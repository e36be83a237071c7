namespace ScriptKinds.CommandLine

inductive Format where
  | text | json
deriving DecidableEq, Repr, Inhabited

def Format.ofName? : String → Option Format
  | "text" => some .text
  | "json" => some .json
  | _ => none

/-- What is to be analysed and how the result is reported. -/
structure Options where
  path : String
  format : Format
deriving DecidableEq, Repr, Inhabited

/-- What can be wrong with arguments. -/
inductive UsageError where
  | missingPath
  | emptyPath
  | extraArgument (argument : String)
  | unknownOption (argument : String)
  | missingFormat
  | unknownFormat (name : String)
  | repeatedFormat
deriving DecidableEq, Repr, Inhabited

/-- What is said of arguments that are wrong. -/
def UsageError.message : UsageError → String
  | missingPath => "no script is given"
  | emptyPath => "the path of the script is empty"
  | extraArgument argument => "unexpected argument '" ++ argument ++ "'"
  | unknownOption argument => "unknown option '" ++ argument ++ "'"
  | missingFormat => "'--format' needs a value"
  | unknownFormat name => "'--format' is 'text' or 'json', not '" ++ name ++ "'"
  | repeatedFormat => "'--format' is given more than once"

/-- What the arguments ask for. -/
inductive Request where
  | analyse (options : Options)
  | help
deriving DecidableEq, Repr, Inhabited

/-- What is known from the arguments so far. -/
structure Gathered where
  path? : Option String
  format? : Option Format
deriving DecidableEq, Repr, Inhabited

namespace Gathered

/-- Before any argument has been read. -/
def blank : Gathered := ⟨none, none⟩

/-- Takes an argument as the path of the script, of which there is one. -/
def addPath (gathered : Gathered) (path : String) : Except UsageError Gathered :=
  match gathered.path? with
  | some _ => .error (.extraArgument path)
  | none => if path = "" then .error .emptyPath else .ok { gathered with path? := some path }

/-- Takes the value of the option for the format, which is given at most once. -/
def addFormat (gathered : Gathered) (name : String) : Except UsageError Gathered :=
  match gathered.format?, Format.ofName? name with
  | some _, _ => .error .repeatedFormat
  | none, none => .error (.unknownFormat name)
  | none, some format => .ok { gathered with format? := some format }

/-- The options, if a path is known.  Text is the usual format. -/
def options (gathered : Gathered) : Except UsageError Options :=
  match gathered.path? with
  | some path => .ok ⟨path, gathered.format?.getD .text⟩
  | none => .error .missingPath

end Gathered

/-- What an argument is by itself. -/
inductive Argument where
  | help
  /-- The option for the format, with its value in the next argument. -/
  | format
  /-- The option for the format together with its value. -/
  | formatIs (name : String)
  /-- The end of the options. -/
  | dashes
  | path (path : String)
  | unknown (argument : String)
deriving DecidableEq, Repr, Inhabited

/-- The value in an argument that gives the format with an equals sign. -/
def formatValue? (argument : String) : Option String :=
  let mark := "--format=".toList
  let cs := argument.toList
  if mark.isPrefixOf cs then some (String.ofList (cs.drop mark.length)) else none

/-- Reads one argument.  A single dash is a path. -/
def Argument.ofText (argument : String) : Argument :=
  match argument with
  | "-h" | "--help" => .help
  | "--format" => .format
  | "--" => .dashes
  | "-" => .path "-"
  | _ =>
      match formatValue? argument with
      | some name => .formatIs name
      | none => if argument.toList.head? = some '-' then .unknown argument else .path argument

/-- Reads arguments from left to right.  The first error counts, and a request
for help ends the reading. -/
def Gathered.readAll : Gathered → List String → Except UsageError Request
  | gathered, [] => gathered.options.map .analyse
  | gathered, argument :: others =>
      match Argument.ofText argument with
      | .help => .ok .help
      | .format =>
          match others with
          | [] => .error .missingFormat
          | name :: others => (gathered.addFormat name).bind (readAll · others)
      | .formatIs name => (gathered.addFormat name).bind (readAll · others)
      | .dashes => ((others.foldlM addPath gathered).bind options).map .analyse
      | .path path => (gathered.addPath path).bind (readAll · others)
      | .unknown argument => .error (.unknownOption argument)

def Request.ofArguments (arguments : List String) : Except UsageError Request :=
  Gathered.blank.readAll arguments

end ScriptKinds.CommandLine
