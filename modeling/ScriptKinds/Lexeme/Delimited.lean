import ScriptKinds.Text.CharClass

/-!
How far delimited elements reach.

Each function here is given the text after an opening delimiter and counts the
characters up to and including the closing one.  A backslash takes the
character after it along, so an escaped delimiter closes nothing.
-/

namespace ScriptKinds.Lexeme

/-- The length of the rest of a string up to and including its closing quote.
A string ends on the line on which it starts. -/
def untilQuote (quote : Char) : List Char → Option Nat
  | [] => none
  | ['\\'] => none
  | '\\' :: c :: cs => if c == '\n' then none else (untilQuote quote cs).map (· + 2)
  | c :: cs =>
      if c == '\n' then none
      else if c == quote then some 1
      else (untilQuote quote cs).map (· + 1)

/-- What ends a stretch of template text. -/
inductive TemplateEnd where
  | backtick
  | substitution
deriving DecidableEq, Repr

/-- The length of the rest of a stretch of template text up to and including
what ends it. -/
def untilTemplateEnd : List Char → Option (Nat × TemplateEnd)
  | [] => none
  | '`' :: _ => some (1, .backtick)
  | '$' :: '{' :: _ => some (2, .substitution)
  | ['\\'] => none
  | '\\' :: _ :: cs => (untilTemplateEnd cs).map fun (n, stop) => (n + 2, stop)
  | _ :: cs => (untilTemplateEnd cs).map fun (n, stop) => (n + 1, stop)

/-- The length of the rest of a block comment up to and including `*/`. -/
def untilCommentEnd : List Char → Option Nat
  | [] => none
  | '*' :: '/' :: _ => some 2
  | _ :: cs => (untilCommentEnd cs).map (· + 1)

/-- The length of the rest of a regular expression's pattern up to and
including the closing slash.  A slash inside a bracketed class closes nothing,
and a pattern ends on the line on which it starts. -/
def untilSlash (inClass : Bool) : List Char → Option Nat
  | [] => none
  | ['\\'] => none
  | '\\' :: c :: cs => if c == '\n' then none else (untilSlash inClass cs).map (· + 2)
  | c :: cs =>
      if c == '\n' then none
      else if inClass then (untilSlash (c != ']') cs).map (· + 1)
      else if c == '/' then some 1
      else (untilSlash (c == '[') cs).map (· + 1)

/-- The length of the rest of a regular expression literal after its opening
slash: a pattern that is not empty, the closing slash and the flags. -/
def regexLength? (cs : List Char) : Option Nat :=
  match untilSlash false cs with
  | none => none
  | some 1 => none
  | some n => some (n + ((cs.drop n).takeWhile Text.isLetter).length)

end ScriptKinds.Lexeme
