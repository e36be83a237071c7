import Mathlib.Data.Multiset.AddSub
import ScriptKinds.Syntax.Tree

namespace ScriptKinds

/-- A node that carries a number. -/
inductive Numbered where
  | name (occurrence : Identifier)
  /-- A block or a `for` statement. -/
  | construct (id : NodeId)
deriving DecidableEq, Repr

namespace Numbered

def id : Numbered → NodeId
  | name occurrence => occurrence.id
  | construct id => id

/-- The name of a node, if it is an occurrence of one. -/
def name? : Numbered → Option Identifier
  | name occurrence => some occurrence
  | construct _ => none

end Numbered

/-- The names that a target binds. -/
def Target.named (target : Target) : List Numbered :=
  target.names.map .name

/-- The name of a function or class, if it has one. -/
def namedBy (name? : Option Identifier) : List Numbered :=
  name?.toList.map .name

mutual

/-- The numbered nodes of an expression. -/
def Expr.numbered : Expr → List Numbered
  | .number _ _ | .string _ _ _ | .boolean _ _ | .null _ | .regex _ _ _ => []
  | .symbol name _ => [.name name]
  | .array elements _ => exprNumbered elements
  | .object properties _ => propertyNumbered properties
  | .function name? parameters body _ _ =>
      namedBy name? ++ parameters.flatMap (fun parameter => parameter.target.named) ++
        parameterNumbered parameters ++ body.numbered
  | .binary _ left right _ => left.numbered ++ right.numbered
  | .unary _ operand _ => operand.numbered
  | .update _ operand _ _ => operand.numbered
  | .assignment _ target value _ => target.numbered ++ value.numbered
  | .call callee arguments _ | .new callee arguments _ =>
      callee.numbered ++ exprNumbered arguments
  | .member object _ _ => object.numbered
  | .index object index _ => object.numbered ++ index.numbered
  | .conditional test consequent alternate _ =>
      test.numbered ++ consequent.numbered ++ alternate.numbered
  | .template _ substitutions _ => exprNumbered substitutions
  | .sequence operands _ => exprNumbered operands
  | .spread argument _ => argument.numbered
  | .classDef name? superclass? members _ =>
      namedBy name? ++ exprNumbered? superclass? ++ memberNumbered members

def exprNumbered : List Expr → List Numbered
  | [] => []
  | expr :: others => expr.numbered ++ exprNumbered others

def exprNumbered? : Option Expr → List Numbered
  | none => []
  | some expr => expr.numbered

def propertyNumbered : List Property → List Numbered
  | [] => []
  | ⟨_, value⟩ :: others => value.numbered ++ propertyNumbered others

def elementNumbered : List PatternElement → List Numbered
  | [] => []
  | ⟨_, default?, _⟩ :: others => exprNumbered? default? ++ elementNumbered others

/-- The numbered nodes in the defaults of a target. -/
def Target.numbered : Target → List Numbered
  | .name _ => []
  | .pattern elements nestedDefaults => elementNumbered elements ++ exprNumbered nestedDefaults

def parameterNumbered : List Parameter → List Numbered
  | [] => []
  | ⟨target, default?, _, _⟩ :: others =>
      exprNumbered? default? ++ target.numbered ++ parameterNumbered others

def memberNumbered : List Member → List Numbered
  | [] => []
  | ⟨_, _, value?, _⟩ :: others => exprNumbered? value? ++ memberNumbered others

/-- The numbered nodes of a block, with the block itself. -/
def Block.numbered : Block → List Numbered
  | ⟨id, body, _⟩ => .construct id :: stmtNumbered body

def blockNumbered? : Option Block → List Numbered
  | none => []
  | some block => block.numbered

def declaratorNumbered : List Declarator → List Numbered
  | [] => []
  | ⟨target, value?, _⟩ :: others =>
      target.named ++ exprNumbered? value? ++ target.numbered ++ declaratorNumbered others

def handlerNumbered? : Option CatchClause → List Numbered
  | none => []
  | some ⟨none, body, _⟩ => body.numbered
  | some ⟨some target, body, _⟩ => target.named ++ target.numbered ++ body.numbered

def clauseNumbered : List SwitchClause → List Numbered
  | [] => []
  | ⟨test?, body, _⟩ :: others => exprNumbered? test? ++ stmtNumbered body ++ clauseNumbered others

/-- The numbered nodes of a statement. -/
def Stmt.numbered : Stmt → List Numbered
  | .expression value _ => value.numbered
  | .block block => block.numbered
  | .varDeclaration _ declarators _ => declaratorNumbered declarators
  | .conditional condition consequent alternate? _ =>
      condition.numbered ++ consequent.numbered ++ stmtNumbered? alternate?
  | .whileLoop condition body _ => condition.numbered ++ body.numbered
  | .doWhile body condition _ => body.numbered ++ condition.numbered
  | .forLoop init? condition? update? body id _ =>
      .construct id :: (stmtNumbered? init? ++ exprNumbered? condition? ++ exprNumbered? update? ++
        body.numbered)
  | .forEach _ target _ subject body id _ =>
      .construct id :: (subject.numbered ++ target.named ++ target.numbered ++ body.numbered)
  | .function name parameters body _ =>
      .name name :: (parameters.flatMap (fun parameter => parameter.target.named) ++
        parameterNumbered parameters ++ body.numbered)
  | .result value? _ => exprNumbered? value?
  | .imports bindings _ _ => bindings.map fun binding => .name binding.name
  | .exports declaration _ => declaration.numbered
  | .leave _ | .skip _ | .empty _ => []
  | .guarded block handler? finalizer? _ =>
      block.numbered ++ handlerNumbered? handler? ++ blockNumbered? finalizer?
  | .raise value _ => value.numbered
  | .switch subject clauses _ => subject.numbered ++ clauseNumbered clauses
  | .labeled _ body _ => body.numbered
  | .classDef name superclass? members _ =>
      .name name :: (exprNumbered? superclass? ++ memberNumbered members)

def stmtNumbered? : Option Stmt → List Numbered
  | none => []
  | some stmt => stmt.numbered

def stmtNumbered : List Stmt → List Numbered
  | [] => []
  | stmt :: others => stmt.numbered ++ stmtNumbered others

end

attribute [simp] Expr.numbered Target.numbered Block.numbered Stmt.numbered

theorem Block.numbered_eq (block : Block) :
    block.numbered = .construct block.id :: stmtNumbered block.body := by
  cases block
  rfl

/-- The numbered nodes of a parameter. -/
def Parameter.numbered (parameter : Parameter) : List Numbered :=
  parameter.target.named ++ exprNumbered? parameter.default? ++ parameter.target.numbered

/-- The numbered nodes of a member of a class. -/
def Member.numbered (member : Member) : List Numbered :=
  exprNumbered? member.value?

/-- The numbered nodes of a declarator. -/
def Declarator.numbered (declarator : Declarator) : List Numbered :=
  declarator.target.named ++ exprNumbered? declarator.value? ++ declarator.target.numbered

/-- The numbered nodes of a clause of a switch statement. -/
def SwitchClause.numbered (clause : SwitchClause) : List Numbered :=
  exprNumbered? clause.test? ++ stmtNumbered clause.body

section Lists

@[simp] theorem exprNumbered_eq (exprs : List Expr) :
    exprNumbered exprs = exprs.flatMap Expr.numbered := by
  induction exprs with
  | nil => rfl
  | cons expr others ih => rw [exprNumbered, ih, List.flatMap_cons]

@[simp] theorem exprNumbered?_eq (expr? : Option Expr) :
    exprNumbered? expr? = expr?.toList.flatMap Expr.numbered := by
  cases expr? <;> simp [exprNumbered?]

@[simp] theorem propertyNumbered_eq (properties : List Property) :
    propertyNumbered properties = properties.flatMap (fun property => property.value.numbered) := by
  induction properties with
  | nil => rfl
  | cons property others ih =>
      obtain ⟨key, value⟩ := property
      rw [propertyNumbered, ih, List.flatMap_cons]

@[simp] theorem elementNumbered_eq (elements : List PatternElement) :
    elementNumbered elements =
      elements.flatMap (fun element => exprNumbered? element.default?) := by
  induction elements with
  | nil => rfl
  | cons element others ih =>
      obtain ⟨name, default?, span⟩ := element
      rw [elementNumbered, ih, List.flatMap_cons]

@[simp] theorem parameterNumbered_eq (parameters : List Parameter) :
    parameterNumbered parameters = parameters.flatMap (fun parameter =>
      exprNumbered? parameter.default? ++ parameter.target.numbered) := by
  induction parameters with
  | nil => rfl
  | cons parameter others ih =>
      obtain ⟨target, default?, rest, span⟩ := parameter
      rw [parameterNumbered, ih, List.flatMap_cons]

@[simp] theorem memberNumbered_eq (members : List Member) :
    memberNumbered members = members.flatMap Member.numbered := by
  induction members with
  | nil => rfl
  | cons member others ih =>
      obtain ⟨key, isStatic, value?, span⟩ := member
      rw [memberNumbered, ih, List.flatMap_cons]
      rfl

@[simp] theorem blockNumbered?_eq (block? : Option Block) :
    blockNumbered? block? = block?.toList.flatMap Block.numbered := by
  cases block? <;> simp [blockNumbered?]

@[simp] theorem declaratorNumbered_eq (declarators : List Declarator) :
    declaratorNumbered declarators = declarators.flatMap Declarator.numbered := by
  induction declarators with
  | nil => rfl
  | cons declarator others ih =>
      obtain ⟨target, value?, span⟩ := declarator
      rw [declaratorNumbered, ih, List.flatMap_cons]
      rfl

@[simp] theorem clauseNumbered_eq (clauses : List SwitchClause) :
    clauseNumbered clauses = clauses.flatMap SwitchClause.numbered := by
  induction clauses with
  | nil => rfl
  | cons clause others ih =>
      obtain ⟨test?, body, span⟩ := clause
      rw [clauseNumbered, ih, List.flatMap_cons]
      rfl

@[simp] theorem stmtNumbered_eq (stmts : List Stmt) :
    stmtNumbered stmts = stmts.flatMap Stmt.numbered := by
  induction stmts with
  | nil => rfl
  | cons stmt others ih => rw [stmtNumbered, ih, List.flatMap_cons]

@[simp] theorem stmtNumbered?_eq (stmt? : Option Stmt) :
    stmtNumbered? stmt? = stmt?.toList.flatMap Stmt.numbered := by
  cases stmt? <;> simp [stmtNumbered?]

end Lists

end ScriptKinds
