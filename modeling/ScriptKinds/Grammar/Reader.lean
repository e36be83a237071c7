import ScriptKinds.Grammar.Table
import ScriptKinds.Source.Fault
import ScriptKinds.Syntax.Tree
import ScriptKinds.Token.Stream

/-!
Readers of token streams.

A reader looks at a stream of tokens from the place it has reached and hands
out fresh node numbers.  When it fails, the place and the numbers reached so
far remain, so reading can be taken up again after a failure.  Repetition is
bounded by the number of tokens.  A reader that repeats itself without end,
which takes a stream whose last token is a reserved word, is stopped with the
failure `exhausted`.  One that has to cut a text inside a character breaks off.
-/

namespace ScriptKinds

/-- What a reader reads from: tokens, the name of their source and the grammar. -/
structure Input where
  tokens : TokenStream
  file : String
  grammar : Grammar

/-- How far reading has come: the place of the current token and the next free number. -/
structure Progress where
  place : Nat
  nextId : NodeId
deriving DecidableEq, Repr, Inhabited

/-- Why reading stops without a result. -/
inductive Failure where
  | fault (fault : Fault)
  /-- The bound on repetition was reached. -/
  | exhausted
  /-- A text was to be cut inside a character.  Reading stops there without a
  fault. -/
  | broken
deriving DecidableEq, Repr

/-- A computation that reads tokens. -/
abbrev Reader := ReaderT Input (EStateM Failure Progress)

namespace Progress

/-- Where every reader starts.  The number 0 is reserved for the script. -/
def start : Progress := ⟨0, 1⟩

end Progress

namespace Reader

/-- The token some places ahead.  The sum is exact; a place in a word of 64 bits keeps it
below `2 ^ 64`. -/
def peek (ahead : Nat) : Reader Token := fun input progress =>
  .ok (input.tokens.get (progress.place + ahead)) progress

/-- The token at which reading stands, which is not passed. -/
def current : Reader Token :=
  peek 0

/-- The current token, which is passed unless it is the last one. -/
def advance : Reader Token := fun input progress =>
  .ok (input.tokens.get progress.place)
    { progress with
      place := if progress.place < input.tokens.body.size then progress.place + 1
        else progress.place }

/-- A node number that no node has. -/
def freshId : Reader NodeId := fun _ progress =>
  .ok progress.nextId { progress with nextId := progress.nextId + 1 }

/-- The offset at which the current token starts. -/
def offset : Reader Nat :=
  return (← current).span.start

/-- The offset at which the last token that was passed ends. -/
def endOffset : Reader Nat := fun input progress =>
  match progress.place with
  | 0 => .ok 0 progress
  | before + 1 => .ok (input.tokens.get before).span.stop progress

/-- Fails with a fault in the source that is read. -/
def failAt {α : Type} (cause : Cause) (offset : Nat) : Reader α := fun input progress =>
  .error (.fault ⟨cause, offset, input.file⟩) progress

/-- Fails because something else than a token was expected at it. -/
def failExpecting {α : Type} (expectation : String) (token : Token) : Reader α :=
  failAt (.expected token.text expectation) token.span.start

/-- Fails because something else was expected at the current token. -/
def failHere {α : Type} (expectation : String) : Reader α := do
  failExpecting expectation (← current)

/-- Fails because something was repeated too often. -/
def exhausted {α : Type} : Reader α := fun _ progress =>
  .error .exhausted progress

/-- Stops reading where the text of a token cannot be cut. -/
def breakOff {α : Type} : Reader α := fun _ progress =>
  .error .broken progress

/-- Whether the current token is of a kind. -/
def atKind (kind : TokenKind) : Reader Bool :=
  return (← current).kind == kind

/-- Whether the current token is of one of some kinds. -/
def atOneOf (kinds : List TokenKind) : Reader Bool :=
  return kinds.contains (← current).kind

/-- Whether the current token is a certain identifier. -/
def atWord (word : String) : Reader Bool :=
  return (← current).isWord word

/-- Whether the current token does not end the text. -/
def hasTokens : Reader Bool :=
  return (← current).kind != .endOfInput

/-- Passes a token of a kind, or fails in a given way. -/
def expectOr (kind : TokenKind) (failure : Reader Token) : Reader Token := do
  if ← atKind kind then advance else failure

/-- Passes a token of a kind, or fails by naming the kind. -/
def expect (kind : TokenKind) : Reader Token :=
  expectOr kind (failHere ("expected " ++ kind.name))

/-- Passes a certain identifier, or fails by naming it. -/
def expectWord (word : String) : Reader Token := do
  if ← atWord word then advance else failHere ("expected `" ++ word ++ "`")

/-- Passes the semicolon that ends a statement.  It may be missing before a
closing brace, at the end of the text and before a token on a new line. -/
def expectSemicolon : Reader Unit := do
  let token ← current
  if token.kind == .semicolon then
    let _ ← advance
  else if token.kind == .closeCurly || token.kind == .endOfInput || token.newlineBefore then
    return
  else
    failExpecting "expected `;` or a line break" token

/-- Passes the current token if it has a kind, and tells whether it did. -/
def skipIf (kind : TokenKind) : Reader Bool := do
  if ← atKind kind then
    let _ ← advance
    return true
  else
    return false

/-- Whether to repeat a step. -/
inductive Again (σ α : Type) where
  | again (state : σ)
  | done (result : α)

/-- Repeats a step until it is done, at most as often as the bound says. -/
def repeatAtMost {σ α : Type} (step : σ → Reader (Again σ α)) : Nat → σ → Reader α
  | 0, _ => exhausted
  | bound + 1, state => do
      match ← step state with
      | .again next => repeatAtMost step bound next
      | .done result => return result

/-- The bound on repetition: more than the number of tokens. -/
def bound : Reader Nat := fun input progress =>
  .ok (input.tokens.size + 1) progress

/-- Repeats a step from a state until it gives a result. -/
def iterate {σ α : Type} (step : σ → Reader (Again σ α)) (state : σ) : Reader α := do
  repeatAtMost step (← bound) state

/-- Collects items until the test holds, at most as many as the bound says.
An item may contribute any number of elements. -/
def collectAtMost {α : Type} (finished : Reader Bool) (item : Reader (List α)) :
    Nat → Reader (List α)
  | 0 => exhausted
  | bound + 1 => do
      if ← finished then
        return []
      else
        let first ← item
        let others ← collectAtMost finished item bound
        return first ++ others

/-- Collects items until something says that there are no more. -/
def collectUntil {α : Type} (finished : Reader Bool) (item : Reader (List α)) :
    Reader (List α) := do
  collectAtMost finished item (← bound)

/-- Reads items for as long as a comma follows, at most as many as the bound
says. -/
def separatedAtMost {α : Type} (item : Reader α) : Nat → Reader (List α)
  | 0 => exhausted
  | bound + 1 => do
      let first ← item
      if ← skipIf .comma then
        let others ← separatedAtMost item bound
        return first :: others
      else
        return [first]

/-- One item or more with commas between them. -/
def separated {α : Type} (item : Reader α) : Reader (List α) := do
  separatedAtMost item (← bound)

/-- Passes a comma unless the current token has the closing kind. -/
def separator (close : TokenKind) : Reader Unit := do
  if ← atKind close then
    return
  else
    let _ ← expect .comma

/-- An item that is read only if something says that it is there. -/
def optional {α : Type} (present : Bool) (item : Reader α) : Reader (Option α) := do
  if present then return some (← item) else return none

/-- The span from an offset up to where reading has come. -/
def spanFrom (start : Nat) : Reader Span :=
  return ⟨start, ← endOffset⟩

end Reader

end ScriptKinds
