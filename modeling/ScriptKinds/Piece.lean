import ScriptKinds.Lexeme.Delimited
import ScriptKinds.Lexeme.Number
import ScriptKinds.Source.Fault
import ScriptKinds.Token.Kind

/-!
Pieces of a source text.

A text is cut from left to right into pieces.  A piece is a lexeme, which has
a kind of token, or a gap: a run of blanks or a comment.  What a piece is
depends on the text ahead and on two facts about the lexemes before it, its
`Context`: whether a slash can start a regular expression, and whether a brace
closes a template substitution.  The pieces always join up to the part of the
text that was cut, and the cut ends early only at a fault.
-/

namespace ScriptKinds

/-- A stretch of a source: a lexeme of some kind, or a gap. -/
structure Piece where
  kind? : Option TokenKind
  text : List Char
deriving DecidableEq, Repr, Inhabited

/-- What earlier lexemes decide about the next piece. -/
structure Context where
  /-- The kind of the last lexeme. -/
  previous? : Option TokenKind
  /-- The number of open braces in each open template substitution, innermost
  first. -/
  braces : List Nat
deriving DecidableEq, Repr, Inhabited

namespace Context

/-- The context at the beginning of a source. -/
def start : Context := ⟨none, []⟩

/-- The kinds of lexeme that end an operand. -/
def operandEnds : List TokenKind :=
  [.identifier, .number, .string, .template, .templateTail, .regex, .closeParen, .closeBracket,
    .closeCurly, .trueWord, .falseWord, .nullWord, .plusPlus, .minusMinus]

/-- Whether a slash may start a regular expression: not after an operand. -/
def regexAllowed (context : Context) : Bool :=
  match context.previous? with
  | some kind => !operandEnds.contains kind
  | none => true

/-- Whether a closing brace resumes the text of a template. -/
def closesSubstitution (context : Context) : Bool :=
  context.braces.head? == some 0

/-- The counters of open braces behind a token of a kind. -/
def bracesAfter (kind : TokenKind) (braces : List Nat) : List Nat :=
  match kind, braces with
  | .templateHead, braces => 0 :: braces
  | .templateTail, _ :: outer => outer
  | .openCurly, depth :: outer => (depth + 1) :: outer
  | .closeCurly, depth :: outer => (depth - 1) :: outer
  | _, braces => braces

def after (context : Context) (piece : Piece) : Context :=
  match piece.kind? with
  | some kind => ⟨some kind, bracesAfter kind context.braces⟩
  | none => context

end Context

namespace Piece

open Text Lexeme

/-- The first piece of a text, by its kind and the number of characters after
its first. -/
structure Extent where
  kind? : Option TokenKind
  more : Nat
deriving DecidableEq, Repr

/-- The longest operator or punctuation mark at the start of a text. -/
def operatorExtent (c : Char) (cs : List Char) : Except Cause Extent :=
  match TokenKind.operators.find? fun entry => entry.1.toList.isPrefixOf (c :: cs) with
  | some (text, kind) => .ok ⟨some kind, text.length - 1⟩
  | none => .error (.unrecognised (String.singleton c))

/-- A stretch of template text after the character that opens it. -/
def templateExtent (ended opened : TokenKind) (cs : List Char) : Except Cause Extent :=
  match untilTemplateEnd cs with
  | some (n, .backtick) => .ok ⟨some ended, n⟩
  | some (n, .substitution) => .ok ⟨some opened, n⟩
  | none => .error .unterminatedString

/-- What starts with a slash: a comment, a regular expression or an operator. -/
def slashExtent (context : Context) (cs : List Char) : Except Cause Extent :=
  match cs with
  | '/' :: _ => .ok ⟨none, runLength (· != '\n') cs⟩
  | '*' :: rest =>
      match untilCommentEnd rest with
      | some n => .ok ⟨none, n + 1⟩
      | none => .error .unterminatedComment
  | _ =>
      match if context.regexAllowed then regexLength? cs else none with
      | some n => .ok ⟨some .regex, n⟩
      | none => operatorExtent '/' cs

/-- What starts with a character, and how far it goes on behind that. -/
def extent (context : Context) (c : Char) (cs : List Char) : Except Cause Extent :=
  if isWordStart c then
    let tail := cs.takeWhile isWordPart
    .ok ⟨some (TokenKind.ofWord (String.ofList (c :: tail))), tail.length⟩
  else if isBlank c then
    .ok ⟨none, runLength isBlank cs⟩
  else
    match numberLength (c :: cs) with
    | n + 1 => .ok ⟨some .number, n⟩
    | 0 =>
      match c with
      | '"' | '\'' =>
          match untilQuote c cs with
          | some n => .ok ⟨some .string, n⟩
          | none => .error .unterminatedString
      | '`' => templateExtent .template .templateHead cs
      | '/' => slashExtent context cs
      | '}' =>
          if context.closesSubstitution then templateExtent .templateTail .templateMiddle cs
          else operatorExtent c cs
      | c => operatorExtent c cs

/-- How cutting a text into pieces ends. -/
inductive Ending where
  | complete
  | faulty (cause : Cause)
deriving DecidableEq, Repr

/-- The pieces of a text in order, up to its end or to the first fault. -/
def cut (context : Context) : List Char → List Piece × Ending
  | [] => ([], if context.braces.isEmpty then .complete else .faulty .unterminatedString)
  | c :: cs =>
      match extent context c cs with
      | .error cause => ([], .faulty cause)
      | .ok found =>
          let piece : Piece := ⟨found.kind?, c :: cs.take found.more⟩
          let rest := cut (context.after piece) (cs.drop found.more)
          (piece :: rest.1, rest.2)
termination_by cs => cs.length
decreasing_by simp only [List.length_cons, List.length_drop]; omega

/-- The text that some pieces are cut from. -/
def join (pieces : List Piece) : List Char :=
  pieces.flatMap Piece.text

end Piece

end ScriptKinds
