import ScriptKinds.Syntax.Tree

/-!
The nodes of a tree, of whatever kind, and which of them lie in which.

The children of a node are all pieces of syntax that it is made of, in the
order of the text.  Only the names and the defaults of a pattern are kept
apart, as the tree keeps them.
-/

namespace ScriptKinds

/-- A piece of syntax of any kind. -/
inductive Node where
  | expr (expr : Expr)
  | property (property : Property)
  | parameter (parameter : Parameter)
  | target (target : Target)
  | element (element : PatternElement)
  | member (member : Member)
  | stmt (stmt : Stmt)
  | block (block : Block)
  | binding (binding : ImportBinding)
  | declarator (declarator : Declarator)
  | handler (handler : CatchClause)
  | clause (clause : SwitchClause)

/-- The pieces of which an expression is made. -/
def Expr.children : Expr → List Node
  | .number _ _ | .string _ _ _ | .boolean _ _ | .null _ | .symbol _ _ | .regex _ _ _ => []
  | .array elements _ => elements.map .expr
  | .object properties _ => properties.map .property
  | .function _ parameters body _ _ => parameters.map .parameter ++ [.block body]
  | .binary _ left right _ => [.expr left, .expr right]
  | .unary _ operand _ | .update _ operand _ _ => [.expr operand]
  | .assignment _ target value _ => [.expr target, .expr value]
  | .call callee arguments _ | .new callee arguments _ => .expr callee :: arguments.map .expr
  | .member owner _ _ => [.expr owner]
  | .index owner key _ => [.expr owner, .expr key]
  | .conditional test consequent alternate _ => [.expr test, .expr consequent, .expr alternate]
  | .template _ substitutions _ => substitutions.map .expr
  | .sequence operands _ => operands.map .expr
  | .spread argument _ => [.expr argument]
  | .classDef _ superclass? members _ => superclass?.toList.map .expr ++ members.map .member

/-- The pieces of which a statement is made. -/
def Stmt.children : Stmt → List Node
  | .expression value _ | .raise value _ => [.expr value]
  | .block inner => [.block inner]
  | .varDeclaration _ declarators _ => declarators.map .declarator
  | .conditional condition consequent alternate? _ =>
      [.expr condition, .stmt consequent] ++ alternate?.toList.map .stmt
  | .whileLoop condition body _ => [.expr condition, .stmt body]
  | .doWhile body condition _ => [.stmt body, .expr condition]
  | .forLoop init? condition? update? body _ _ =>
      init?.toList.map .stmt ++ condition?.toList.map .expr ++ update?.toList.map .expr ++
        [.stmt body]
  | .forEach _ target _ subject body _ _ => [.target target, .expr subject, .stmt body]
  | .function _ parameters body _ => parameters.map .parameter ++ [.block body]
  | .result value? _ => value?.toList.map .expr
  | .imports bindings _ _ => bindings.map .binding
  | .exports declaration _ => [.stmt declaration]
  | .leave _ | .skip _ | .empty _ => []
  | .guarded guardedBlock handler? finalizer? _ =>
      .block guardedBlock :: (handler?.toList.map .handler ++ finalizer?.toList.map .block)
  | .switch subject clauses _ => .expr subject :: clauses.map .clause
  | .labeled _ body _ => [.stmt body]
  | .classDef _ superclass? members _ => superclass?.toList.map .expr ++ members.map .member

/-- The names of a pattern, and apart from them its nested defaults. -/
def Target.children : Target → List Node
  | .name _ => []
  | .pattern elements nestedDefaults => elements.map .element ++ nestedDefaults.map .expr

namespace Node

/-- The pieces of which a node is made, in the order of the text. -/
def children : Node → List Node
  | expr inner => inner.children
  | property entry => [.expr entry.value]
  | parameter inner => .target inner.target :: inner.default?.toList.map .expr
  | target inner => inner.children
  | element inner => inner.default?.toList.map .expr
  | member inner => inner.value?.toList.map .expr
  | stmt inner => inner.children
  | block inner => inner.body.map .stmt
  | binding _ => []
  | declarator inner => .target inner.target :: inner.value?.toList.map .expr
  | handler inner => inner.parameter?.toList.map .target ++ [.block inner.body]
  | clause inner => inner.test?.toList.map .expr ++ inner.body.map .stmt

/-- A node that lies in another one, at any depth, or is that one. -/
inductive Inside : Node → Node → Prop where
  | self (node : Node) : Inside node node
  | deeper {inner child outer : Node} (hchild : child ∈ outer.children)
      (hinside : Inside inner child) : Inside inner outer

theorem Inside.child {inner outer : Node} (h : inner ∈ outer.children) : Inside inner outer :=
  .deeper h (.self inner)

theorem Inside.trans {inner middle outer : Node} (h : Inside inner middle)
    (h' : Inside middle outer) : Inside inner outer := by
  induction h' with
  | self => exact h
  | deeper hchild _ ih => exact .deeper hchild ih

/-- A declaration of a pattern has a value, as it takes that apart. -/
def Initialized : Node → Prop
  | declarator inner => inner.value? = none → ∃ name, inner.target = .name name
  | _ => True

theorem sizeOf_child {child node : Node} (h : child ∈ node.children) :
    sizeOf child < sizeOf node := by
  suffices hall : ∀ child ∈ node.children, sizeOf child < sizeOf node from hall child h
  cases node with
  | expr expr =>
      cases expr <;> simp [children, Expr.children, or_imp, forall_and] <;>
        grind [→ List.sizeOf_lt_of_mem]
  | stmt stmt =>
      cases stmt <;> simp [children, Stmt.children, or_imp, forall_and] <;>
        grind [→ List.sizeOf_lt_of_mem]
  | target target =>
      cases target <;> simp [children, Target.children, or_imp, forall_and]
      grind [→ List.sizeOf_lt_of_mem]
  | property node | parameter node | element node | member node | block node | binding node
  | declarator node | handler node | clause node =>
      cases node
      simp [children, or_imp, forall_and] <;>
        grind [→ List.sizeOf_lt_of_mem]

theorem Inside.sizeOf_le {inner outer : Node} (h : Inside inner outer) :
    sizeOf inner ≤ sizeOf outer := by
  induction h with
  | self => exact Nat.le_refl _
  | deeper hchild _ ih => exact Nat.le_trans ih (Nat.le_of_lt (sizeOf_child hchild))

end Node

end ScriptKinds
