import ScriptKinds.CommandLine.Json
import ScriptKinds.CommandLine.Options
import ScriptKinds.Scope.Model
import ScriptKinds.Source.Line

namespace ScriptKinds.CommandLine

/-- The number of the line on which a symbol is declared. -/
def lineNumber? (source : String) (symbol : Symbol) : Option Nat :=
  (Text.lineAt? source.toList symbol.declaration).map fun found => found.number

/-- The line on a symbol in a textual report. -/
def textLine (source : String) (symbol : Symbol) : String :=
  let number := match lineNumber? source symbol with
    | some number => toString number
    | none => "?"
  number ++ ":" ++ symbol.name ++ " " ++ symbol.kind.name ++ " " ++ symbol.kinds.text ++ "\n"

/-- The object on a symbol in a structured report. -/
def symbolObject (source : String) (symbol : Symbol) : JsonValue :=
  let line := match lineNumber? source symbol with
    | some number => JsonValue.number number
    | none => .null
  .object [("line", line), ("id", .number symbol.id), ("name", .string symbol.name),
    ("kind", .string symbol.kind.name), ("declaration", .number symbol.declaration),
    ("scope", .number symbol.scope), ("types", .array (symbol.kinds.names.map .string))]

/-- The report on all symbols of a model, in the order of their numbers. -/
def report (format : Format) (source : String) (model : Model) : String :=
  match format with
  | .text => String.join (model.symbols.toList.map (textLine source))
  | .json => (JsonValue.array (model.symbols.toList.map (symbolObject source))).pretty 0 ++ "\n"

end ScriptKinds.CommandLine
