import ScriptKinds.Grammar.Body
import ScriptKinds.Numeric.Literal

/-!
Expressions, read by the powers of their operators.

An expression starts with a token of a leading form.  As long as the next
token continues it with a power above the one asked for, what has been read
becomes the first operand of a larger expression.
-/

namespace ScriptKinds

/-- The pattern and the flags of a regular expression literal, which are
separated by its last slash.  The pattern starts at the second byte, so there
is none if the first character takes more than one. -/
def splitRegex (literal : List Char) : Option (List Char × List Char) :=
  let flags := (literal.reverse.takeWhile (· != '/')).reverse
  match (literal.take (literal.length - flags.length)).dropLast with
  | opening :: pattern => if opening.utf8Size = 1 then some (pattern, flags) else none
  | [] => some (literal, [])

namespace TokenStream

/-- Whether the parenthesis that closes the list at a place is followed by an
arrow.  The depth counts the parentheses that are open before the place. -/
def arrowFollows (tokens : TokenStream) : Nat → Nat → Nat → Bool
  | 0, _, _ => false
  | bound + 1, depth, place =>
      match (tokens.get place).kind with
      | .openParen => arrowFollows tokens bound (depth + 1) (place + 1)
      | .closeParen =>
          if depth ≤ 1 then (tokens.get (place + 1)).kind == .arrow
          else arrowFollows tokens bound (depth - 1) (place + 1)
      | .endOfInput => false
      | _ => arrowFollows tokens bound depth (place + 1)

end TokenStream

namespace Grammar

open Reader

/-- The span from the start of one span to the end of another. -/
def cover (first last : Span) : Span :=
  ⟨first.start, last.stop⟩

def readPrimary : Reader Expr := do
  let token ← advance
  match token.kind with
  | .number =>
      match Literal.value? token.text with
      | some value => return .number value token.span
      | none => failAt (.malformedNumber token.text) token.span.start
  | .identifier => return .symbol ⟨token.text, ← freshId⟩ token.span
  | .string => return .string token.text false token.span
  | .template => return .string token.text true token.span
  | .trueWord => return .boolean true token.span
  | .falseWord => return .boolean false token.span
  | .nullWord => return .null token.span
  | _ => failAt (.unexpected token.text) token.span.start

/-- Fails at an expression to which nothing can be assigned. -/
def checkAssignable (target : Expr) : Reader Unit :=
  if target.isAssignable then return
  else failAt (.invalidTarget target.formName) target.span.start

/-- The arguments of a call in their parentheses. -/
def readArguments (nt : Nonterminals) : Reader (List Expr) := do
  let _ ← expect .openParen
  let arguments ← collectUntil (atKind .closeParen) do
    let argument ← nt.expr .comma
    separator .closeParen
    return [argument]
  let _ ← expect .closeParen
  return arguments

/-- An element of an array literal with its comma.  A hole is none. -/
def readElement (nt : Nonterminals) : Reader (List Expr) := do
  if ← skipIf .comma then
    return []
  else
    let element ← nt.expr .comma
    separator .closeBracket
    return [element]

def readArray (nt : Nonterminals) : Reader Expr := do
  let opening ← advance
  let elements ← collectUntil (atKind .closeBracket) (readElement nt)
  let _ ← expect .closeBracket
  return .array elements (← spanFrom opening.span.start)

/-- Three dots and what is spread. -/
def readSpread (nt : Nonterminals) : Reader Expr := do
  let dots ← advance
  let argument ← nt.expr .comma
  return .spread argument (cover dots.span argument.span)

/-- What follows the key of a property: a value after a colon, a method, or
nothing, in which case the key also names the value. -/
def readPropertyValue (nt : Nonterminals) (key : Token) : Reader Expr := do
  if ← skipIf .colon then
    nt.expr .comma
  else if ← atKind .openParen then
    readFunction nt key.span.start none
  else if key.kind == .identifier then
    return .symbol ⟨key.text, ← freshId⟩ key.span
  else
    failHere "expected `:` after property name"

/-- A property of an object literal: spread, with a value, or a name alone. -/
def readPropertyEntry (nt : Nonterminals) : Reader Property := do
  if ← atKind .ellipsis then
    return ⟨"...", ← readSpread nt⟩
  else
    let key ← current
    if key.isMemberName then
      let _ ← advance
      return ⟨key.text, ← readPropertyValue nt key⟩
    else
      failExpecting "expected property name in object literal" key

/-- A property with the comma behind it. -/
def readProperty (nt : Nonterminals) : Reader (List Property) := do
  let property ← readPropertyEntry nt
  separator .closeCurly
  return [property]

def readObject (nt : Nonterminals) : Reader Expr := do
  let opening ← advance
  let properties ← collectUntil (atKind .closeCurly) (readProperty nt)
  let _ ← expect .closeCurly
  return .object properties (← spanFrom opening.span.start)

/-- A substitution of a template and the text after it, in addition to the
texts and substitutions before it. -/
def readSubstitution (nt : Nonterminals) (read : List String × List Expr) :
    Reader (Again (List String × List Expr) (List String × List Expr)) := do
  let substitution ← nt.expr .none
  let part ← current
  let read := (read.1 ++ [part.text], read.2 ++ [substitution])
  if part.kind == .templateMiddle then
    let _ ← advance
    return .again read
  else if part.kind == .templateTail then
    let _ ← advance
    return .done read
  else
    failExpecting "expected `\x7d` closing the template substitution" part

def readTemplate (nt : Nonterminals) : Reader Expr := do
  let head ← advance
  let (texts, substitutions) ← iterate (readSubstitution nt) ([head.text], [])
  return .template texts substitutions (← spanFrom head.span.start)

/-- A regular expression, from the text of its token. -/
def readRegex : Reader Expr := do
  let token ← advance
  match splitRegex token.text.toList with
  | some (pattern, flags) =>
      return .regex (String.ofList pattern) (String.ofList flags) token.span
  | none => breakOff

/-- Whether the parenthesis at the current token opens the parameters of an
arrow function. -/
def atArrowParameters : Reader Bool := fun input progress =>
  .ok (input.tokens.arrowFollows (input.tokens.size + 1) 0 progress.place) progress

/-- A parenthesised expression, or an arrow function with a parameter list. -/
def readGroup (nt : Nonterminals) : Reader Expr := do
  if ← atArrowParameters then
    let start ← offset
    let parameters ← readParameters nt
    let _ ← expect .arrow
    let body ← readArrowBody nt
    return .function none parameters body true (← spanFrom start)
  else
    let _ ← advance
    let inner ← nt.expr .none
    let _ ← expect .closeParen
    return inner

/-- A unary operator in front of its operand. -/
def readUnary (nt : Nonterminals) : Reader Expr := do
  let operator ← advance
  let operand ← nt.expr .unary
  return .unary operator operand (cover operator.span operand.span)

/-- An increment or decrement in front of its operand. -/
def readLeadingUpdate (nt : Nonterminals) : Reader Expr := do
  let operator ← advance
  let operand ← nt.expr .unary
  checkAssignable operand
  return .update operator operand true (cover operator.span operand.span)

/-- A `new` expression.  The argument list may be missing. -/
def readNew (nt : Nonterminals) : Reader Expr := do
  let word ← advance
  let callee ← nt.expr .call
  let arguments ← if ← atKind .openParen then readArguments nt else pure []
  return .new callee arguments (← spanFrom word.span.start)

def readFunctionExpr (nt : Nonterminals) : Reader Expr := do
  let word ← advance
  let name? ← readOptionalName
  readFunction nt word.span.start name?

def readClassExpr (nt : Nonterminals) : Reader Expr := do
  let word ← advance
  let name? ← readOptionalName
  let (superclass?, members) ← readClassTail nt
  return .classDef name? superclass? members (← spanFrom word.span.start)

/-- An expression by the form that its first token starts. -/
def readLeading (nt : Nonterminals) : LeadingForm → Reader Expr
  | .primary => readPrimary
  | .template => readTemplate nt
  | .regex => readRegex
  | .array => readArray nt
  | .object => readObject nt
  | .function => readFunctionExpr nt
  | .classDef => readClassExpr nt
  | .unary => readUnary nt
  | .spread => readSpread nt
  | .update => readLeadingUpdate nt
  | .group => readGroup nt
  | .new => readNew nt

/-- A sequence, behind its first expression. -/
def readSequence (nt : Nonterminals) (left : Expr) : Reader Expr := do
  let _ ← advance
  let others ← separated (nt.expr .comma)
  return .sequence (left :: others) (← spanFrom left.span.start)

/-- The rest of an assignment.  The value may be an assignment again. -/
def readAssignment (nt : Nonterminals) (left : Expr) : Reader Expr := do
  checkAssignable left
  let operator ← advance
  let value ← nt.expr .comma
  return .assignment operator left value (cover left.span value.span)

/-- The rest of an arrow function whose parameter is a bare name.  The name
keeps the number that it got as an expression. -/
def readArrow (nt : Nonterminals) (left : Expr) : Reader Expr := do
  match left with
  | .symbol name span =>
      let _ ← expect .arrow
      let body ← readArrowBody nt
      return .function none [⟨.name name, none, false, span⟩] body true (← spanFrom span.start)
  | _ =>
      failAt (.expected "=>" "arrow function parameters must be identifiers") left.span.start

/-- What follows the test of a conditional expression. -/
def readConditional (nt : Nonterminals) (left : Expr) : Reader Expr := do
  let _ ← advance
  let consequent ← nt.expr .comma
  let _ ← expect .colon
  let alternate ← nt.expr .comma
  return .conditional left consequent alternate (cover left.span alternate.span)

/-- The rest of a binary expression whose right operand consists of tokens that
bind closer than a power. -/
def readBinary (nt : Nonterminals) (power : Power) (left : Expr) : Reader Expr := do
  let operator ← advance
  let right ← nt.expr power
  return .binary operator left right (cover left.span right.span)

/-- An increment or decrement behind its operand. -/
def readTrailingUpdate (left : Expr) : Reader Expr := do
  checkAssignable left
  let operator ← advance
  return .update operator left false (cover left.span operator.span)

def readCall (nt : Nonterminals) (left : Expr) : Reader Expr := do
  let arguments ← readArguments nt
  return .call left arguments (← spanFrom left.span.start)

/-- A dot and the name of a property. -/
def readMemberAccess (left : Expr) : Reader Expr := do
  let _ ← advance
  let name ← current
  if name.isPropertyName then
    let _ ← advance
    return .member left name.text (← spanFrom left.span.start)
  else
    failExpecting "expected property name after `.`" name

/-- A key in brackets behind an object. -/
def readIndex (nt : Nonterminals) (left : Expr) : Reader Expr := do
  let _ ← advance
  let index ← nt.expr .none
  let _ ← expect .closeBracket
  return .index left index (← spanFrom left.span.start)

/-- An expression by its first operand, the form that the current token
continues it with and the power of that token.  Operands of the same power
group to the left, those of `**` to the right. -/
def readTrailing (nt : Nonterminals) (left : Expr) (power : Power) : TrailingForm → Reader Expr
  | .sequence => readSequence nt left
  | .assignment => readAssignment nt left
  | .arrow => readArrow nt left
  | .conditional => readConditional nt left
  | .binary => readBinary nt power left
  | .exponent => readBinary nt .multiplicative left
  | .update => readTrailingUpdate left
  | .call => readCall nt left
  | .member => readMemberAccess left
  | .index => readIndex nt left

/-- Whether a token is an increment or decrement on a new line, which starts a
statement of its own. -/
def startsLineUpdate (token : Token) : Bool :=
  token.newlineBefore && (token.kind == .plusPlus || token.kind == .minusMinus)

/-- Continues an expression with the current token, if it binds closer than a
power. -/
def readContinuation (nt : Nonterminals) (power : Power) (left : Expr) :
    Reader (Again Expr Expr) := fun input => do
  let token ← current input
  match input.grammar.trailing? token.kind with
  | none => return .done left
  | some (form, own) =>
      if own ≤ power ∨ startsLineUpdate token then return .done left
      else return .again (← readTrailing nt left own form input)

/-- An expression of tokens that bind closer than a power. -/
def readExpr (nt : Nonterminals) (power : Power) : Reader Expr := fun input => do
  let token ← current input
  match input.grammar.leading? token.kind with
  | none => failAt (.unexpected token.text) token.span.start input
  | some form =>
      let left ← readLeading nt form input
      iterate (readContinuation nt power) left input

end Grammar

end ScriptKinds
