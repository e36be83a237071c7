import ScriptKinds.Grammar.Binding

namespace ScriptKinds.Grammar

open Reader

/-- A block from its opening to its closing brace.  Its number is handed out
after those of the nodes inside. -/
def readBlock (nt : Nonterminals) : Reader Block := do
  let opening ← expect .openCurly
  let body ← collectUntil (atKind .closeCurly) (return [← nt.stmt])
  let _ ← expect .closeCurly
  let id ← freshId
  return ⟨id, body, ← spanFrom opening.span.start⟩

/-- The body of an arrow function.  An expression stands for a block that
returns it. -/
def readArrowBody (nt : Nonterminals) : Reader Block := do
  if ← atKind .openCurly then
    readBlock nt
  else
    let value ← nt.expr .comma
    let id ← freshId
    return ⟨id, [.result (some value) value.span], value.span⟩

/-- The parameters and the body of a function that starts at a byte offset. -/
def readFunction (nt : Nonterminals) (start : Nat) (name? : Option Identifier) : Reader Expr := do
  let parameters ← readParameters nt
  let body ← readBlock nt
  return .function name? parameters body false (← spanFrom start)

/-- The name of a function or class expression, if it has one. -/
def readOptionalName : Reader (Option Identifier) := do
  if ← atKind .identifier then
    let token ← advance
    return some ⟨token.text, ← freshId⟩
  else
    return none

/-- Passes the word `word` if it modifies the class member after it.  A word
before anything else is itself the name of a member. -/
def skipModifier (words : List String) : Reader Bool := do
  let token ← current
  let next ← peek 1
  if (words.any fun word => token.isWord word) && next.isMemberName then
    let _ ← advance
    return true
  else
    return false

/-- What follows the name of a class member: a method, or a field with an
optional value. -/
def readMemberValue (nt : Nonterminals) (key : Token) : Reader (Option Expr) := do
  if ← atKind .openParen then
    return some (← readFunction nt key.span.start none)
  else
    let value? ← readDefault nt
    expectSemicolon
    return value?

/-- A member of a class, or a semicolon between members. -/
def readMember (nt : Nonterminals) : Reader (List Member) := do
  if ← skipIf .semicolon then
    return []
  else
    let start ← offset
    let isStatic ← skipModifier ["static"]
    let _ ← skipModifier ["get", "set"]
    let key ← current
    if key.isMemberName then
      let _ ← advance
      let value? ← readMemberValue nt key
      return [⟨key.text, isStatic, value?, ← spanFrom start⟩]
    else
      failExpecting "expected class member name" key

/-- What follows the name of a class: an optional superclass and the members. -/
def readClassTail (nt : Nonterminals) : Reader (Option Expr × List Member) := do
  let superclass? ← optional (← skipIf .extendsWord) (nt.expr .unary)
  let _ ← expect .openCurly
  let members ← collectUntil (atKind .closeCurly) (readMember nt)
  let _ ← expect .closeCurly
  return (superclass?, members)

end ScriptKinds.Grammar
