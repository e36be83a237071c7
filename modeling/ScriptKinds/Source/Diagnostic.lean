import ScriptKinds.Source.Fault
import ScriptKinds.Source.Line
import ScriptKinds.Text.Trim

namespace ScriptKinds.Diagnostic

open Text

/-- The first line of a report on a fault. -/
def headline (cause : Cause) : String :=
  match cause.tip? with
  | some tip => "Error: " ++ cause.name ++ " (" ++ tip ++ ")"
  | none => "Error: " ++ cause.name

/-- The spaces and tabs at the start of a line. -/
def indentation (line : List Char) : List Char :=
  line.takeWhile fun c => c == ' ' || c == '\t'

/-- The text of a line as it is shown, without its indentation. -/
def shownLine (line : List Char) : List Char :=
  trimEnd (line.drop (indentation line).length)

/-- The number of dashes before the caret.  A fault in the indentation is shown
at the start of the line. -/
def caretColumn (found : LinePosition) : Nat :=
  found.offset - (indentation found.line).length

/-- The margin of the lines without a number. -/
def margin (number : Nat) : String :=
  String.ofList (List.replicate ((toString number).length + 1) ' ') ++ "|"

/-- The line of a fault with a caret under the fault. -/
def excerpt (found : LinePosition) : List String :=
  [margin found.number,
    toString found.number ++ " | " ++ String.ofList (shownLine found.line),
    margin found.number ++ " " ++ String.ofList (List.replicate (caretColumn found) '-') ++ "^"]

/-- The lines that show a fault of a text. -/
def lines (fault : Fault) (content path : String) : List String :=
  headline fault.cause :: ("-> " ++ path) ::
    match lineAt? content.toList fault.position.offset with
    | some found => excerpt found
    | none => []

/-- A report on a fault in a source. -/
def render (fault : Fault) (content path : String) : String :=
  String.join ((lines fault content path).map (· ++ "\n"))

end ScriptKinds.Diagnostic
