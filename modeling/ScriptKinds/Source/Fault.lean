import ScriptKinds.Source.Position
import ScriptKinds.Text.Quoted

namespace ScriptKinds

/-- Why a text is not a script. -/
inductive Cause where
  /-- No token, blank or comment starts with this character. -/
  | unrecognised (text : String)
  /-- No expression starts with this token. -/
  | unexpected (text : String)
  /-- This token stands where something else was expected. -/
  | expected (text : String) (expectation : String)
  /-- This number has no value. -/
  | malformedNumber (text : String)
  /-- A string, a template or a substitution is not closed. -/
  | unterminatedString
  /-- A block comment is not closed. -/
  | unterminatedComment
  /-- A form of expression that cannot be assigned to. -/
  | invalidTarget (form : String)
deriving DecidableEq, Repr, Inhabited

namespace Cause

def name : Cause → String
  | unrecognised _ => "UnrecognisedToken"
  | unexpected _ => "UnexpectedToken"
  | expected _ _ => "UnexpectedTokenDetailed"
  | malformedNumber _ => "NumberParseError"
  | unterminatedString => "UnterminatedString"
  | unterminatedComment => "UnterminatedComment"
  | invalidTarget _ => "InvalidAssignmentTarget"

/-- The cause in one line, with source text quoted. -/
def message : Cause → String
  | unrecognised text => "unrecognised token: " ++ Text.quoted text
  | unexpected text => "unexpected token: " ++ Text.quoted text
  | expected text expectation =>
      "unexpected token (" ++ Text.quoted expectation ++ "): " ++ Text.quoted text
  | malformedNumber text => "error parsing number: " ++ Text.quoted text
  | unterminatedString => "unterminated string literal"
  | unterminatedComment => "unterminated block comment"
  | invalidTarget form => "invalid assignment target: " ++ Text.quoted form

/-- What the author of the text may want to look at, with source text verbatim. -/
def tip? : Cause → Option String
  | unrecognised _ => none
  | unexpected text =>
      some ("Unexpected token: `" ++ text ++ "`, did you miss a semicolon?")
  | expected text expectation => some ("Unexpected token: `" ++ text ++ "`, " ++ expectation)
  | malformedNumber text => some ("Invalid number literal: `" ++ text ++ "`")
  | unterminatedString => some "String literal is missing its closing quote"
  | unterminatedComment => some "Block comment is missing its closing `*/`"
  | invalidTarget form =>
      some ("Cannot assign to `" ++ form ++ "`, expected an identifier or a member access")

end Cause

/-- A cause at a position. -/
structure Fault where
  cause : Cause
  position : Position
deriving DecidableEq, Repr, Inhabited

/-- The message of the cause, followed by where it arose. -/
def Fault.message (fault : Fault) : String :=
  fault.cause.message ++ " at " ++ fault.position.file ++ ":" ++ toString fault.position.offset

end ScriptKinds
