import ScriptKinds.Scope.Basic

/-!
What a script does to its scopes.

Binding the names of a script is a walk along the tree that enters and leaves
scopes, declares names and uses them.  This module lists the steps of that
walk, the actions, without carrying them out.

Declarations with `var`, of functions and of imports belong to the whole
function around them, and those with `let` and `const` and of classes to the
whole block.  Their names are therefore declared when the function or block is
entered, before anything in it is read.
-/

namespace ScriptKinds

/-- A name to declare, as what, and the offset at which it is declared. -/
structure Declaration where
  name : Identifier
  kind : SymbolKind
  position : Nat
deriving DecidableEq, Repr, Inhabited

/-- The scope in which a declaration takes place. -/
inductive Place where
  | innermost
  /-- The innermost open scope of a function or of the script. -/
  | boundary
deriving DecidableEq, Repr, Inhabited

/-- A step of the walk. -/
inductive Action where
  | enter (kind : ScopeKind)
  | leave
  | declare (declaration : Declaration)
  /-- Declares a name unless that has been done when its scope was entered. -/
  | ensure (place : Place) (declaration : Declaration)
  | read (name : Identifier)
  | write (name : Identifier) (position : Nat)
deriving DecidableEq, Repr, Inhabited

/-- What the names of a target declare. -/
def Target.declarations (target : Target) (kind : SymbolKind) (position : Nat) :
    List Declaration :=
  target.names.map fun name => ⟨name, kind, position⟩

def Declarator.declarations (declarator : Declarator) : List Declaration :=
  declarator.target.declarations .variable declarator.span.start

def ImportBinding.declaration (binding : ImportBinding) : Declaration :=
  ⟨binding.name, .imported, binding.span.start⟩

mutual

/-- The declarations in a statement, but not in functions inside it, that
belong to the function around it. -/
def Stmt.hoisted : Stmt → List Declaration
  | .varDeclaration .var declarators _ => declarators.flatMap Declarator.declarations
  | .function name _ _ span => [⟨name, .function, span.start⟩]
  | .imports bindings _ _ => bindings.map ImportBinding.declaration
  | .block ⟨_, body, _⟩ => hoistedAll body
  | .conditional _ consequent alternate? _ => consequent.hoisted ++ hoisted? alternate?
  | .whileLoop _ body _ | .doWhile body _ _ | .labeled _ body _ => body.hoisted
  | .forLoop init? _ _ body _ _ => hoisted? init? ++ body.hoisted
  | .forEach (some .var) target _ _ body _ span =>
      target.declarations .variable span.start ++ body.hoisted
  | .forEach _ _ _ _ body _ _ => body.hoisted
  | .exports declaration _ => declaration.hoisted
  | .guarded ⟨_, body, _⟩ handler? finalizer? _ =>
      hoistedAll body ++ hoistedHandler? handler? ++ hoistedBlock? finalizer?
  | .switch _ clauses _ => hoistedClauses clauses
  | _ => []

def hoisted? : Option Stmt → List Declaration
  | none => []
  | some stmt => stmt.hoisted

/-- The declarations in a list of statements that belong to the function
around it. -/
def hoistedAll : List Stmt → List Declaration
  | [] => []
  | stmt :: others => stmt.hoisted ++ hoistedAll others

def hoistedBlock? : Option Block → List Declaration
  | none => []
  | some ⟨_, body, _⟩ => hoistedAll body

def hoistedHandler? : Option CatchClause → List Declaration
  | none => []
  | some ⟨_, ⟨_, body, _⟩, _⟩ => hoistedAll body

/-- What the clauses of a switch statement hoist. -/
def hoistedClauses : List SwitchClause → List Declaration
  | [] => []
  | ⟨_, body, _⟩ :: others => hoistedAll body ++ hoistedClauses others

end

/-- The statement that an export declares, or the statement itself. -/
def Stmt.unexported : Stmt → Stmt
  | .exports declaration _ => declaration
  | stmt => stmt

/-- The declarations in a statement that belong to the block around it. -/
def Stmt.lexical (stmt : Stmt) : List Declaration :=
  match stmt.unexported with
  | .classDef name _ _ span => [⟨name, .classDef, span.start⟩]
  | .varDeclaration .var _ _ => []
  | .varDeclaration _ declarators _ => declarators.flatMap Declarator.declarations
  | _ => []

/-- The actions that declare names when their scope is entered. -/
def declareAll (declarations : List Declaration) : List Action :=
  declarations.map .declare

/-- The actions that declare names in case that has not been done. -/
def ensureAll (place : Place) (declarations : List Declaration) : List Action :=
  declarations.map (.ensure place)

/-- The actions of declaring what belongs to the block of some statements. -/
def enterBlock (body : List Stmt) : List Action :=
  declareAll (body.flatMap Stmt.lexical)

/-- The actions of declaring what belongs to the function or script of some
statements. -/
def enterBody (body : List Stmt) : List Action :=
  declareAll (hoistedAll body) ++ enterBlock body

/-- The place in which a variable declaration takes effect. -/
def DeclarationKind.place : DeclarationKind → Place
  | .var => .boundary
  | _ => .innermost

def declareParameters (parameters : List Parameter) : List Action :=
  declareAll (parameters.flatMap fun parameter =>
    parameter.target.declarations .parameter parameter.span.start)

/-- The actions in a scope of its own. -/
def within (kind : ScopeKind) (actions : List Action) : List Action :=
  .enter kind :: actions ++ [.leave]

/-- The actions in a scope for the name of a function or class, if it has one.
The name is visible only inside. -/
def withinName (name? : Option Identifier) (kind : SymbolKind) (position : Nat)
    (actions : List Action) : List Action :=
  match name? with
  | some name => within .block (.declare ⟨name, kind, position⟩ :: actions)
  | none => actions

/-- The actions of declaring or writing the variable of a loop. -/
def loopVariableActions (kind? : Option DeclarationKind) (target : Target) (position : Nat) :
    List Action :=
  match kind? with
  | some .var => ensureAll .boundary (target.declarations .variable position)
  | some _ => declareAll (target.declarations .variable position)
  | none => target.names.map fun name => .write name position

mutual

/-- What binding does along an expression. -/
def Expr.actions : Expr → List Action
  | .number _ _ | .string _ _ _ | .boolean _ _ | .null _ | .regex _ _ _ => []
  | .symbol name _ => [.read name]
  | .array elements _ => exprActions elements
  | .object properties _ => propertyActions properties
  | .function name? parameters body _ span =>
      withinName name? .function span.start
        (functionActions (declareParameters parameters ++ parameterActions parameters) body)
  | .binary _ left right _ => left.actions ++ right.actions
  | .unary _ operand _ => operand.actions
  | .update _ (.symbol name span) _ _ => [.write name span.start]
  | .update _ operand _ _ => operand.actions
  | .assignment _ (.symbol name span) value _ => .write name span.start :: value.actions
  | .assignment _ target value _ => target.actions ++ value.actions
  | .call callee arguments _ | .new callee arguments _ =>
      callee.actions ++ exprActions arguments
  | .member object _ _ => object.actions
  | .index object index _ => object.actions ++ index.actions
  | .conditional test consequent alternate _ =>
      test.actions ++ consequent.actions ++ alternate.actions
  | .template _ substitutions _ => exprActions substitutions
  | .sequence operands _ => exprActions operands
  | .spread argument _ => argument.actions
  | .classDef name? superclass? members span =>
      withinName name? .classDef span.start (exprActions? superclass? ++ memberActions members)

def exprActions : List Expr → List Action
  | [] => []
  | expr :: others => expr.actions ++ exprActions others

def exprActions? : Option Expr → List Action
  | none => []
  | some expr => expr.actions

def propertyActions : List Property → List Action
  | [] => []
  | ⟨_, value⟩ :: others => value.actions ++ propertyActions others

def elementActions : List PatternElement → List Action
  | [] => []
  | ⟨_, default?, _⟩ :: others => exprActions? default? ++ elementActions others

/-- What binding does along the defaults in a target. -/
def Target.actions : Target → List Action
  | .name _ => []
  | .pattern elements nestedDefaults => elementActions elements ++ exprActions nestedDefaults

/-- What binding does along the defaults of parameters. -/
def parameterActions : List Parameter → List Action
  | [] => []
  | ⟨target, default?, _, _⟩ :: others =>
      exprActions? default? ++ target.actions ++ parameterActions others

/-- The actions in a function's own scope, given those of declaring its
parameters and of evaluating their defaults. -/
def functionActions (parameters : List Action) : Block → List Action
  | ⟨_, body, _⟩ => within .function (parameters ++ enterBody body ++ stmtActions body)

def memberActions : List Member → List Action
  | [] => []
  | ⟨_, _, value?, _⟩ :: others => exprActions? value? ++ memberActions others

/-- The actions of a block in its own scope. -/
def Block.actions : Block → List Action
  | ⟨_, body, _⟩ => within .block (enterBlock body ++ stmtActions body)

def blockActions? : Option Block → List Action
  | none => []
  | some block => block.actions

/-- What binding does along declarators, each before its value. -/
def declaratorActions (place : Place) : List Declarator → List Action
  | [] => []
  | ⟨target, value?, span⟩ :: others =>
      ensureAll place (target.declarations .variable span.start) ++ exprActions? value? ++
        target.actions ++ declaratorActions place others

/-- The actions of a catch clause.  Its parameter has a scope around the body. -/
def handlerActions? : Option CatchClause → List Action
  | none => []
  | some ⟨none, body, _⟩ => within .block body.actions
  | some ⟨some target, body, span⟩ =>
      within .block (declareAll (target.declarations .parameter span.start) ++ target.actions ++
        body.actions)

def clauseActions : List SwitchClause → List Action
  | [] => []
  | ⟨test?, body, _⟩ :: others => exprActions? test? ++ stmtActions body ++ clauseActions others

/-- What binding does along a statement. -/
def Stmt.actions : Stmt → List Action
  | .expression value _ => value.actions
  | .block block => block.actions
  | .varDeclaration kind declarators _ => declaratorActions kind.place declarators
  | .conditional condition consequent alternate? _ =>
      condition.actions ++ consequent.actions ++ stmtActions? alternate?
  | .whileLoop condition body _ => condition.actions ++ body.actions
  | .doWhile body condition _ => body.actions ++ condition.actions
  | .forLoop init? condition? update? body _ _ =>
      within .block (enterBlock init?.toList ++ stmtActions? init? ++ exprActions? condition? ++
        exprActions? update? ++ body.actions)
  | .forEach kind? target _ subject body _ span =>
      subject.actions ++
        within .block
          (loopVariableActions kind? target span.start ++ target.actions ++ body.actions)
  | .function name parameters body span =>
      .ensure .boundary ⟨name, .function, span.start⟩ ::
        functionActions (declareParameters parameters ++ parameterActions parameters) body
  | .result value? _ => exprActions? value?
  | .imports bindings _ _ => ensureAll .innermost (bindings.map ImportBinding.declaration)
  | .exports declaration _ => declaration.actions
  | .leave _ | .skip _ | .empty _ => []
  | .guarded block handler? finalizer? _ =>
      block.actions ++ handlerActions? handler? ++ blockActions? finalizer?
  | .raise value _ => value.actions
  | .switch subject clauses _ =>
      subject.actions ++
        within .block (enterBlock (clauses.flatMap SwitchClause.body) ++ clauseActions clauses)
  | .labeled _ body _ => body.actions
  | .classDef name superclass? members span =>
      .ensure .innermost ⟨name, .classDef, span.start⟩ :: exprActions? superclass? ++
        memberActions members
def stmtActions? : Option Stmt → List Action
  | none => []
  | some stmt => stmt.actions

def stmtActions : List Stmt → List Action
  | [] => []
  | stmt :: others => stmt.actions ++ stmtActions others

end

/-- What binding does along a script. -/
def scriptActions (root : Block) : List Action :=
  within .script (enterBody root.body ++ stmtActions root.body)

end ScriptKinds
