import ScriptKinds.Launcher.Error
import ScriptKinds.Numeric.Literal
import ScriptKinds.Text.DecimalDigit

namespace ScriptKinds.Launcher

open Text

/-- What follows a point and a run of digits, if both are there. -/
def skipPart? : List Char → Option (List Char)
  | '.' :: cs =>
      match cs.takeWhile isDecimalDigit with
      | [] => none
      | _ :: _ => some (cs.dropWhile isDecimalDigit)
  | _ => none

/-- A version without the letter in front of it. -/
def skipMark : List Char → List Char
  | 'v' :: cs => cs
  | cs => cs

/-- The digits of the major version, if a text starts with a version. -/
def majorDigits? (text : List Char) : Option (List Char) :=
  let numbers := skipMark text
  match numbers.takeWhile isDecimalDigit with
  | [] => none
  | digits =>
      match (skipPart? (numbers.dropWhile isDecimalDigit)).bind skipPart? with
      | some _ => some digits
      | none => none

/-- The major version at the start of a text.  It has to be written in ASCII
digits and to fit into thirty-two bits. -/
def majorVersion? (text : List Char) : Option Nat :=
  match (majorDigits? text).bind (Literal.natural? 10) with
  | some major => if major < Nat.pow 2 32 then some major else none
  | none => none

/-- Accepts a version whose major version is at least the one required. -/
def checkVersion (actual : String) (required : Nat) : Except CommandError Unit :=
  match majorVersion? actual.toList with
  | none => .error (.unparseableVersion actual)
  | some major =>
      if major < required then .error (.incompatibleVersion required actual) else .ok ()

end ScriptKinds.Launcher
