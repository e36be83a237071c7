import ScriptKinds.Grammar.Expression

namespace ScriptKinds

namespace TokenStream

/-- The place behind the bracket that closes the pattern at a place, if it is
closed.  The depth counts the brackets that are open before the place. -/
def behindPattern? (tokens : TokenStream) : Nat → Nat → Nat → Option Nat
  | 0, _, _ => none
  | bound + 1, depth, place =>
      match (tokens.get place).kind with
      | .openCurly | .openBracket => behindPattern? tokens bound (depth + 1) (place + 1)
      | .closeCurly | .closeBracket =>
          if depth ≤ 1 then some (place + 1)
          else behindPattern? tokens bound (depth - 1) (place + 1)
      | .endOfInput => none
      | _ => behindPattern? tokens bound depth (place + 1)

/-- The words that start a declaration of variables. -/
def declarationWords : List TokenKind :=
  [.varWord, .letWord, .constWord]

/-- The place behind the variable of a loop, if there is one at a place.  A
pattern must be declared, a name need not be. -/
def behindLoopVariable? (tokens : TokenStream) (place : Nat) : Option Nat :=
  let declared := declarationWords.contains (tokens.get place).kind
  let place := if declared then place + 1 else place
  match (tokens.get place).kind with
  | .identifier => some (place + 1)
  | .openCurly | .openBracket =>
      if declared then behindPattern? tokens (tokens.size + 1) 0 place else none
  | _ => none

/-- Whether the head of a loop at a place names a subject to loop over. -/
def isForEachHead (tokens : TokenStream) (place : Nat) : Bool :=
  match behindLoopVariable? tokens place with
  | some behind =>
      let word := tokens.get behind
      word.kind == .inWord || word.isWord "of"
  | none => false

end TokenStream

namespace Grammar

open Reader

/-- The kind of declaration that a word starts. -/
def declarationKind (word : Token) : DeclarationKind :=
  match word.kind with
  | .constWord => .const
  | .letWord => .let_
  | _ => .var

/-- One entry of a variable declaration.  Constants and patterns need a value. -/
def readDeclarator (nt : Nonterminals) (kind : DeclarationKind) : Reader Declarator := do
  let start ← offset
  let target ← readTarget nt "expected identifier during variable declaration"
  let value? ← readDefault nt
  match kind, target, value? with
  | .const, _, none => failHere "expected rhs in constant definition"
  | _, .pattern _ _, none => failHere "expected rhs for destructuring declaration"
  | _, _, _ => return ⟨target, value?, ← spanFrom start⟩

/-- A declaration of variables without its end. -/
def readVariables (nt : Nonterminals) : Reader Stmt := do
  let word ← advance
  let kind := declarationKind word
  let declarators ← separated (readDeclarator nt kind)
  return .varDeclaration kind declarators (← spanFrom word.span.start)

/-- A declaration of variables as a statement. -/
def readVariablesStmt (nt : Nonterminals) : Reader Stmt := do
  let declaration ← readVariables nt
  expectSemicolon
  return declaration

/-- A name that an import binds, by the token that spells it. -/
def importBinding (token : Token) : Reader ImportBinding :=
  return ⟨⟨token.text, ← freshId⟩, token.span⟩

/-- A name in the braces of an import with its comma.  A name that is no
identifier has to be renamed. -/
def readImportItem : Reader (List ImportBinding) := do
  let imported ← current
  if imported.isPropertyName || imported.kind == .string then
    let _ ← advance
    let name ←
      if ← atWord "as" then
        let _ ← advance
        expect .identifier
      else if imported.kind == .identifier then pure imported
      else failExpecting "reserved names must be renamed with `as`" imported
    let binding ← importBinding name
    separator .closeCurly
    return [binding]
  else
    failExpecting "expected imported name" imported

/-- The names that an import binds: an optional default, and then the whole
module or names in braces. -/
def readImportBindings : Reader (List ImportBinding) := do
  let whole ←
    if ← atKind .identifier then
      let binding ← importBinding (← advance)
      let _ ← skipIf .comma
      pure [binding]
    else pure []
  if ← skipIf .star then
    let _ ← expectWord "as"
    let binding ← importBinding (← expect .identifier)
    return whole ++ [binding]
  else if ← skipIf .openCurly then
    let named ← collectUntil (atKind .closeCurly) readImportItem
    let _ ← expect .closeCurly
    return whole ++ named
  else
    return whole

/-- An import, with or without names. -/
def readImports : Reader Stmt := do
  let word ← advance
  if ← atKind .string then
    let source ← advance
    expectSemicolon
    return .imports [] source.text (← spanFrom word.span.start)
  else
    let bindings ← readImportBindings
    let _ ← expectWord "from"
    let source ← expect .string
    expectSemicolon
    return .imports bindings source.text (← spanFrom word.span.start)

def readFunctionStmt (nt : Nonterminals) : Reader Stmt := do
  let word ← advance
  let (name, _) ← readName (failHere "expected function name")
  let parameters ← readParameters nt
  let body ← readBlock nt
  return .function name parameters body (← spanFrom word.span.start)

/-- An expression as a statement, with the span of the expression. -/
def expressionStmt (value : Expr) : Stmt :=
  .expression value value.span

/-- What a default export exports: a named function, or an expression. -/
def readDefaultExport (nt : Nonterminals) : Reader Stmt := do
  let next ← peek 1
  if (← atKind .functionWord) && next.kind == .identifier then
    readFunctionStmt nt
  else
    let value ← nt.expr .comma
    expectSemicolon
    return expressionStmt value

/-- Passes one token of an export list, which is not kept. -/
def readExportItem : Reader (List Unit) := do
  if ← hasTokens then
    let _ ← advance
    return []
  else
    let token ← current
    failAt (.unexpected token.text) token.span.start

/-- An export of names declared elsewhere, which declares nothing. -/
def readExportList : Reader Stmt := do
  let opening ← advance
  if opening.kind == .openCurly then
    let _ ← collectUntil (atKind .closeCurly) readExportItem
    let _ ← expect .closeCurly
  else if ← atWord "as" then
    let _ ← advance
    let _ ← expect .identifier
  if ← atWord "from" then
    let _ ← advance
    let _ ← expect .string
  expectSemicolon
  return .empty (← spanFrom opening.span.start)

/-- An export of a declaration, of a default or of a list of names. -/
def readExports (nt : Nonterminals) : Reader Stmt := do
  let word ← advance
  let declaration ←
    if ← atWord "default" then
      let _ ← advance
      readDefaultExport nt
    else if ← atOneOf [.openCurly, .star] then readExportList
    else nt.stmt
  return .exports declaration (← spanFrom word.span.start)

def readCondition (nt : Nonterminals) : Reader Expr := do
  let _ ← expect .openParen
  let condition ← nt.expr .none
  let _ ← expect .closeParen
  return condition

def readConditionalStmt (nt : Nonterminals) : Reader Stmt := do
  let word ← advance
  let condition ← readCondition nt
  let consequent ← nt.stmt
  let alternate? ← optional (← skipIf .elseWord) nt.stmt
  return .conditional condition consequent alternate? (← spanFrom word.span.start)

def readWhile (nt : Nonterminals) : Reader Stmt := do
  let word ← advance
  let condition ← readCondition nt
  let body ← nt.stmt
  return .whileLoop condition body (← spanFrom word.span.start)

/-- A loop with its condition at the end, where the semicolon may be missing. -/
def readDoWhile (nt : Nonterminals) : Reader Stmt := do
  let word ← advance
  let body ← nt.stmt
  let _ ← expect .whileWord
  let condition ← readCondition nt
  let _ ← skipIf .semicolon
  return .doWhile body condition (← spanFrom word.span.start)

/-- Whether the head of a loop goes through something. -/
def atForEachHead : Reader Bool := fun input progress =>
  .ok (input.tokens.isForEachHead progress.place) progress

/-- The rest of a loop over a subject that starts at a byte offset. -/
def readForEach (nt : Nonterminals) (start : Nat) : Reader Stmt := do
  let kind? ←
    if ← atOneOf TokenStream.declarationWords then
      let word ← advance
      pure (some (declarationKind word))
    else pure none
  let target ← readTarget nt "expected loop variable"
  let word ← advance
  let subject ← nt.expr .none
  let _ ← expect .closeParen
  let body ← nt.stmt
  let id ← freshId
  return .forEach kind? target (word.kind != .inWord) subject body id (← spanFrom start)

/-- The first part of a loop head: a declaration, an expression or nothing. -/
def readLoopStart (nt : Nonterminals) : Reader (Option Stmt) := do
  if ← atKind .semicolon then
    return none
  else if ← atOneOf TokenStream.declarationWords then
    return some (← readVariables nt)
  else
    return some (expressionStmt (← nt.expr .none))

/-- The rest of a loop with three parts that starts at a byte offset. -/
def readForParts (nt : Nonterminals) (start : Nat) : Reader Stmt := do
  let init? ← readLoopStart nt
  let _ ← expect .semicolon
  let condition? ← optional (!(← atKind .semicolon)) (nt.expr .none)
  let _ ← expect .semicolon
  let update? ← optional (!(← atKind .closeParen)) (nt.expr .none)
  let _ ← expect .closeParen
  let body ← nt.stmt
  let id ← freshId
  return .forLoop init? condition? update? body id (← spanFrom start)

/-- A loop that starts with the word for. -/
def readFor (nt : Nonterminals) : Reader Stmt := do
  let word ← advance
  let _ ← expect .openParen
  if ← atForEachHead then readForEach nt word.span.start
  else readForParts nt word.span.start

/-- A return statement.  The value has to start on the same line. -/
def readResult (nt : Nonterminals) : Reader Stmt := do
  let word ← advance
  let token ← current
  let ends := token.newlineBefore || token.kind == .semicolon || token.kind == .closeCurly ||
    token.kind == .endOfInput
  let value? ← optional (!ends) (nt.expr .none)
  expectSemicolon
  return .result value? (← spanFrom word.span.start)

/-- The rest of a jump: an optional label on the same line. -/
def readJump (jump : Span → Stmt) : Reader Stmt := do
  let word ← advance
  let label ← current
  if label.kind == .identifier && !label.newlineBefore then
    let _ ← advance
  expectSemicolon
  return jump word.span

def readEmpty : Reader Stmt := do
  let semicolon ← advance
  return .empty semicolon.span

def readLabeled (nt : Nonterminals) : Reader Stmt := do
  let label ← advance
  let _ ← expect .colon
  let body ← nt.stmt
  return .labeled label.text body (← spanFrom label.span.start)

def readRaise (nt : Nonterminals) : Reader Stmt := do
  let word ← advance
  let value ← nt.expr .none
  expectSemicolon
  return .raise value (← spanFrom word.span.start)

/-- The parameter of a catch clause behind its parenthesis. -/
def readCatchParameter (nt : Nonterminals) : Reader Target := do
  let target ← readTarget nt "expected catch parameter"
  let _ ← expect .closeParen
  return target

def readCatch (nt : Nonterminals) : Reader CatchClause := do
  let word ← advance
  let parameter? ← optional (← skipIf .openParen) (readCatchParameter nt)
  let body ← readBlock nt
  return ⟨parameter?, body, ← spanFrom word.span.start⟩

/-- A guarded block, which has a catch clause or a final block or both. -/
def readGuarded (nt : Nonterminals) : Reader Stmt := do
  let word ← advance
  let block ← readBlock nt
  let handler? ← optional (← atKind .catchWord) (readCatch nt)
  let finalizer? ← optional (← skipIf .finallyWord) (readBlock nt)
  if handler?.isNone && finalizer?.isNone then
    failHere "expected `catch` or `finally` after try block"
  else
    return .guarded block handler? finalizer? (← spanFrom word.span.start)

/-- Whether the body of a switch clause is over. -/
def atClauseEnd : Reader Bool := do
  let token ← current
  let next ← peek 1
  return token.kind == .caseWord || token.kind == .closeCurly || token.kind == .endOfInput ||
    (token.isWord "default" && next.kind == .colon)

/-- The test of a switch clause, which the default clause lacks. -/
def readClauseTest (nt : Nonterminals) : Reader (Option Expr) := do
  if ← skipIf .caseWord then
    return some (← nt.expr .none)
  else
    let _ ← expectWord "default"
    return none

/-- A clause of a switch statement. -/
def readClause (nt : Nonterminals) : Reader (List SwitchClause) := do
  let start ← offset
  let test? ← readClauseTest nt
  let _ ← expect .colon
  let body ← collectUntil atClauseEnd (return [← nt.stmt])
  return [⟨test?, body, ← spanFrom start⟩]

def readSwitch (nt : Nonterminals) : Reader Stmt := do
  let word ← advance
  let subject ← readCondition nt
  let _ ← expect .openCurly
  let clauses ← collectUntil (atKind .closeCurly) (readClause nt)
  let _ ← expect .closeCurly
  return .switch subject clauses (← spanFrom word.span.start)

def readClassStmt (nt : Nonterminals) : Reader Stmt := do
  let word ← advance
  let (name, _) ← readName (failHere "expected class name")
  let (superclass?, members) ← readClassTail nt
  return .classDef name superclass? members (← spanFrom word.span.start)

/-- A statement of a form that its first token starts. -/
def readForm (nt : Nonterminals) : StatementForm → Reader Stmt
  | .varDeclaration => readVariablesStmt nt
  | .imports => readImports
  | .exports => readExports nt
  | .conditional => readConditionalStmt nt
  | .block => return .block (← readBlock nt)
  | .function => readFunctionStmt nt
  | .result => readResult nt
  | .whileLoop => readWhile nt
  | .doWhile => readDoWhile nt
  | .forLoop => readFor nt
  | .leave => readJump .leave
  | .skip => readJump .skip
  | .empty => readEmpty
  | .guarded => readGuarded nt
  | .raise => readRaise nt
  | .switch => readSwitch nt
  | .classDef => readClassStmt nt

/-- An expression and the end of its statement. -/
def readExpressionStmt (nt : Nonterminals) : Reader Stmt := do
  let value ← nt.expr .none
  expectSemicolon
  return expressionStmt value

/-- A statement, by its first token and for a label by the second. -/
def readStmt (nt : Nonterminals) : Reader Stmt := fun input => do
  let token ← current input
  let next ← peek 1 input
  match input.grammar.statement? token.kind with
  | some form => readForm nt form input
  | none =>
      if token.kind == .identifier && next.kind == .colon then readLabeled nt input
      else readExpressionStmt nt input

end Grammar

end ScriptKinds
