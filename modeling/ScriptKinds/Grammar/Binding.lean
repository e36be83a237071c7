import ScriptKinds.Grammar.Reader

namespace ScriptKinds.Grammar

open Reader

/-- What a part of a pattern binds, and the defaults of the patterns nested in it. -/
structure PatternParts where
  elements : List PatternElement
  nestedDefaults : List Expr

namespace PatternParts

/-- The parts of a pattern with those of the patterns nested in it. -/
def join (parts : List PatternParts) : PatternParts :=
  ⟨parts.flatMap elements, parts.flatMap nestedDefaults⟩

end PatternParts

/-- Readers of the three constructs that contain one another. -/
structure Nonterminals where
  /-- An expression of tokens that bind closer than a power. -/
  expr : Power → Reader Expr
  stmt : Reader Stmt
  pattern : Reader PatternParts

/-- A default behind an equals sign, if there is one. -/
def readDefault (nt : Nonterminals) : Reader (Option Expr) := do
  optional (← skipIf .assignment) (nt.expr .comma)

/-- A name, which gets a fresh number, or a failure. -/
def readName (failure : Reader Token) : Reader (Identifier × Span) := do
  let token ← expectOr .identifier failure
  return (⟨token.text, ← freshId⟩, token.span)

/-- What an array pattern, a rest element or a property of an object pattern
binds: a name or a nested pattern, with an optional default. -/
def readPatternElement (nt : Nonterminals) : Reader PatternParts := do
  if ← atOneOf [.openCurly, .openBracket] then
    let inner ← nt.pattern
    let default? ← readDefault nt
    return ⟨inner.elements, inner.nestedDefaults ++ default?.toList⟩
  else
    let (name, span) ← readName (failHere "expected name in destructuring pattern")
    let default? ← readDefault nt
    return ⟨[⟨name, default?, span⟩], []⟩

/-- An entry of an array pattern with its comma.  A hole binds nothing. -/
def readArrayPatternItem (nt : Nonterminals) : Reader (List PatternParts) := do
  if ← skipIf .comma then
    return []
  else
    let _ ← skipIf .ellipsis
    let parts ← readPatternElement nt
    separator .closeBracket
    return [parts]

/-- A property of an object pattern: a key and what it is bound to, or a name
that is key and binding at once. -/
def readPatternProperty (nt : Nonterminals) : Reader PatternParts := do
  let key ← current
  if key.isMemberName then
    let _ ← advance
    if ← skipIf .colon then
      readPatternElement nt
    else if key.kind == .identifier then
      let id ← freshId
      let default? ← readDefault nt
      return ⟨[⟨⟨key.text, id⟩, default?, key.span⟩], []⟩
    else
      failHere "expected `:` after property name"
  else
    failExpecting "expected property name in object pattern" key

/-- An entry of an object pattern with the comma behind it. -/
def readObjectPatternItem (nt : Nonterminals) : Reader (List PatternParts) := do
  let parts ← if ← skipIf .ellipsis then readPatternElement nt else readPatternProperty nt
  separator .closeCurly
  return [parts]

/-- A pattern in braces or brackets. -/
def readPattern (nt : Nonterminals) : Reader PatternParts := do
  let opening ← advance
  if opening.kind == .openCurly then
    let parts ← collectUntil (atKind .closeCurly) (readObjectPatternItem nt)
    let _ ← expect .closeCurly
    return .join parts
  else
    let parts ← collectUntil (atKind .closeBracket) (readArrayPatternItem nt)
    let _ ← expect .closeBracket
    return .join parts

/-- A name or a pattern.  The expectation is what a failure reports. -/
def readTarget (nt : Nonterminals) (expectation : String) : Reader Target := do
  if ← atOneOf [.openCurly, .openBracket] then
    let parts ← nt.pattern
    return .pattern parts.elements parts.nestedDefaults
  else
    let (name, _) ← readName (failHere expectation)
    return .name name

/-- A parameter with the comma behind it. -/
def readParameter (nt : Nonterminals) : Reader (List Parameter) := do
  let start ← offset
  let rest ← skipIf .ellipsis
  let target ← readTarget nt "expected parameter name"
  let default? ← readDefault nt
  let span ← spanFrom start
  separator .closeParen
  return [⟨target, default?, rest, span⟩]

/-- The parameters of a function in their parentheses. -/
def readParameters (nt : Nonterminals) : Reader (List Parameter) := do
  let _ ← expect .openParen
  let parameters ← collectUntil (atKind .closeParen) (readParameter nt)
  let _ ← expect .closeParen
  return parameters

end ScriptKinds.Grammar
