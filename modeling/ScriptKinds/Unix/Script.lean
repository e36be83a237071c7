import ScriptKinds.Unix.Word

namespace ScriptKinds.Unix

/-- When a pipeline runs. -/
inductive Link where
  | always | onSuccess | onFailure
deriving DecidableEq, Repr, Inhabited

/-- What stands between the words of a shell script. -/
inductive ShellOperator where
  | link (link : Link)
  | pipe
  | input
  | toFile (descriptor : Nat)
  /-- A stream goes where another stream goes. -/
  | toStream (descriptor : Nat)
deriving DecidableEq, Repr, Inhabited

/-- A word or an operator of a shell script. -/
inductive ShellToken where
  | word (marks : List Mark)
  | operator (operator : ShellOperator)
deriving DecidableEq, Repr, Inhabited

/-- The token of a word that has been gathered in reverse, if there is one. -/
def flush : List Mark → List ShellToken
  | [] => []
  | marks => [.word marks.reverse]

/-- The number of the stream that a redirection behind a gathered word means,
and the word if it is no such number. -/
def descriptorOf (word : List Mark) : Option Nat × List ShellToken :=
  match word with
  | [.char c .bare] =>
      if c.isDigit then (some (c.toNat - '0'.toNat), []) else (none, flush word)
  | _ => (none, flush word)

/-- The tokens of marks behind a word that has been gathered in reverse.  Where
`comment` is set, the rest of the line is none of them. -/
def tokensOf (comment : Bool) (word : List Mark) : List Mark → List ShellToken
  | [] => flush word
  | .char '\n' .bare :: marks => flush word ++ .operator (.link .always) :: tokensOf false [] marks
  | .char c quoting :: marks =>
      if comment then tokensOf true [] marks
      else
        match c, quoting, marks with
        | '&', .bare, .char '&' .bare :: marks =>
            flush word ++ .operator (.link .onSuccess) :: tokensOf false [] marks
        | '|', .bare, .char '|' .bare :: marks =>
            flush word ++ .operator (.link .onFailure) :: tokensOf false [] marks
        | ';', .bare, marks => flush word ++ .operator (.link .always) :: tokensOf false [] marks
        | '|', .bare, marks => flush word ++ .operator .pipe :: tokensOf false [] marks
        | '<', .bare, marks =>
            (descriptorOf word).2 ++ .operator .input :: tokensOf false [] marks
        | '>', .bare, .char '>' .bare :: marks =>
            let (descriptor?, before) := descriptorOf word
            before ++ .operator (.toFile (descriptor?.getD 1)) :: tokensOf false [] marks
        | '>', .bare, .char '&' .bare :: marks =>
            let (descriptor?, before) := descriptorOf word
            before ++ .operator (.toStream (descriptor?.getD 1)) :: tokensOf false [] marks
        | '>', .bare, marks =>
            let (descriptor?, before) := descriptorOf word
            before ++ .operator (.toFile (descriptor?.getD 1)) :: tokensOf false [] marks
        | '#', .bare, marks => if word = [] then tokensOf true [] marks
            else tokensOf false (.bare '#' :: word) marks
        | c, quoting, marks =>
            if quoting = .bare ∧ isBlankChar c then flush word ++ tokensOf false [] marks
            else tokensOf false (.char c quoting :: word) marks
  | .anchor :: marks =>
      if comment then tokensOf true [] marks else tokensOf false (.anchor :: word) marks
termination_by marks => marks.length

/-- A command with its redirections, in order. -/
structure SimpleCommand where
  words : List (List Mark)
  redirections : List (ShellOperator × List Mark)
deriving DecidableEq, Repr, Inhabited

/-- A command without words and redirections. -/
def SimpleCommand.blank : SimpleCommand := ⟨[], []⟩

/-- Commands of which each but the first reads what the one before writes. -/
abbrev Pipeline := List SimpleCommand

/-- A command from its tokens, unless a redirection has no target. -/
def commandOf? : List ShellToken → Option SimpleCommand
  | [] => some .blank
  | .word word :: tokens =>
      (commandOf? tokens).map fun command => { command with words := word :: command.words }
  | .operator operator :: .word target :: tokens =>
      (commandOf? tokens).map fun command =>
        { command with redirections := (operator, target) :: command.redirections }
  | .operator _ :: _ => none

/-- The parts of a list of tokens between operators that `separates` picks,
each with the operator before it. -/
def cutAt (separates : ShellOperator → Bool) (before : ShellOperator) :
    List ShellToken → List (ShellOperator × List ShellToken)
  | [] => [(before, [])]
  | .operator operator :: tokens =>
      if separates operator then (before, []) :: cutAt separates operator tokens
      else extend (.operator operator) (cutAt separates before tokens)
  | token :: tokens => extend token (cutAt separates before tokens)
where
  extend (token : ShellToken) :
      List (ShellOperator × List ShellToken) → List (ShellOperator × List ShellToken)
    | [] => []
    | (operator, tokens) :: others => (operator, token :: tokens) :: others

/-- The pipeline that some tokens spell. -/
def pipelineOf? (tokens : List ShellToken) : Option Pipeline :=
  (cutAt (· == .pipe) .pipe tokens).mapM fun (_, part) => commandOf? part

/-- Whether an operator stands between pipelines. -/
def isLink : ShellOperator → Bool
  | .link _ => true
  | _ => false

/-- A script from its text.  Empty lines and a semicolon at the end do not
count. -/
def scriptOf? (text : String) : Option (List (Link × Pipeline)) := do
  let marks ← marks? .bare text.toList
  let parts := (cutAt isLink (.link .always) (tokensOf false [] marks)).filter fun (_, part) =>
    part ≠ []
  parts.mapM fun (operator, part) => do
    let pipeline ← pipelineOf? part
    match operator with
    | .link link => return (link, pipeline)
    | _ => none

end ScriptKinds.Unix
