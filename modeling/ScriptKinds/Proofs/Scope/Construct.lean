import ScriptKinds.Proofs.Scope.Position

/-!
The constructs that binding goes through, one inside another.

On its way through a construct, binding carries out actions of its own and goes
through the constructs inside as a whole.  So the actions of a script are nested
like the script, and each construct has its stretch among them.
-/

namespace ScriptKinds

/-- What binding goes through as a whole. -/
inductive Construct where
  | expr (inner : Expr)
  | stmt (inner : Stmt)
  | block (inner : Block)
  | function (parameters : List Parameter) (body : Block)
  /-- A class without its name. -/
  | classBody (superclass? : Option Expr) (members : List Member)

/-- A stage of the way through a construct. -/
inductive Stage where
  | own (action : Action)
  | inner (construct : Construct)

/-- What binding does along a construct. -/
def Construct.actions : Construct → List Action
  | expr inner => inner.actions
  | stmt inner => inner.actions
  | block inner => inner.actions
  | function parameters body =>
      functionActions (declareParameters parameters ++ parameterActions parameters) body
  | classBody superclass? members => exprActions? superclass? ++ memberActions members

/-- What binding does in a stage. -/
def Stage.actions : Stage → List Action
  | own action => [action]
  | inner construct => construct.actions

/-- Stages of actions that belong to no part of a construct. -/
def ownStages (actions : List Action) : List Stage :=
  actions.map .own

def exprStages (exprs : List Expr) : List Stage :=
  exprs.map fun expr => .inner (.expr expr)

def stmtStages (stmts : List Stmt) : List Stage :=
  stmts.map fun stmt => .inner (.stmt stmt)

def blockStages (blocks : List Block) : List Stage :=
  blocks.map fun block => .inner (.block block)

/-- The stages in a scope of its own. -/
def stagesWithin (kind : ScopeKind) (stages : List Stage) : List Stage :=
  .own (.enter kind) :: stages ++ [.own .leave]

/-- The way through a function or class that may have a name. -/
def namedStages (name? : Option Identifier) (kind : SymbolKind) (position : Nat)
    (construct : Construct) : List Stage :=
  match name? with
  | some name =>
      stagesWithin .block [.own (.declare ⟨name, kind, position⟩), .inner construct]
  | none => [.inner construct]

/-- The way through the target of an assignment or update. -/
def writtenStages : Expr → List Stage
  | .symbol name span => [.own (.write name span.start)]
  | target => [.inner (.expr target)]

/-- The defaults in a target. -/
def Target.defaults : Target → List Expr
  | .name _ => []
  | .pattern elements nestedDefaults =>
      elements.flatMap (fun element => element.default?.toList) ++ nestedDefaults

def Parameter.defaults (parameter : Parameter) : List Expr :=
  parameter.default?.toList ++ parameter.target.defaults

/-- The stages of a declarator, of which the names come first. -/
def Declarator.stages (place : Place) (declarator : Declarator) : List Stage :=
  ownStages (ensureAll place declarator.declarations) ++
    exprStages (declarator.value?.toList ++ declarator.target.defaults)

/-- The stages of a catch clause, in a scope of its own. -/
def CatchClause.stages (handler : CatchClause) : List Stage :=
  stagesWithin .block
    (handler.parameter?.toList.flatMap (fun target =>
      ownStages (declareAll (target.declarations .parameter handler.span.start)) ++
        exprStages target.defaults) ++ blockStages [handler.body])

/-- The stages of a clause of a switch statement. -/
def SwitchClause.stages (clause : SwitchClause) : List Stage :=
  exprStages clause.test?.toList ++ stmtStages clause.body

def Expr.stages : Expr → List Stage
  | .number _ _ | .string _ _ _ | .boolean _ _ | .null _ | .regex _ _ _ => []
  | .symbol name _ => [.own (.read name)]
  | .array elements _ => exprStages elements
  | .object properties _ => exprStages (properties.map Property.value)
  | .function name? parameters body _ span =>
      namedStages name? .function span.start (.function parameters body)
  | .binary _ left right _ => exprStages [left, right]
  | .unary _ operand _ => exprStages [operand]
  | .update _ operand _ _ => writtenStages operand
  | .assignment _ target value _ => writtenStages target ++ exprStages [value]
  | .call callee arguments _ | .new callee arguments _ => exprStages (callee :: arguments)
  | .member owner _ _ => exprStages [owner]
  | .index owner key _ => exprStages [owner, key]
  | .conditional test consequent alternate _ => exprStages [test, consequent, alternate]
  | .template _ substitutions _ => exprStages substitutions
  | .sequence operands _ => exprStages operands
  | .spread argument _ => exprStages [argument]
  | .classDef name? superclass? members span =>
      namedStages name? .classDef span.start (.classBody superclass? members)

def Stmt.stages : Stmt → List Stage
  | .expression value _ | .raise value _ => exprStages [value]
  | .block inner => blockStages [inner]
  | .varDeclaration kind declarators _ => declarators.flatMap (Declarator.stages kind.place)
  | .conditional condition consequent alternate? _ =>
      exprStages [condition] ++ stmtStages (consequent :: alternate?.toList)
  | .whileLoop condition body _ => exprStages [condition] ++ stmtStages [body]
  | .doWhile body condition _ => stmtStages [body] ++ exprStages [condition]
  | .forLoop init? condition? update? body _ _ =>
      stagesWithin .block (ownStages (enterBlock init?.toList) ++ stmtStages init?.toList ++
        exprStages (condition?.toList ++ update?.toList) ++ stmtStages [body])
  | .forEach kind? target _ subject body _ span =>
      exprStages [subject] ++
        stagesWithin .block (ownStages (loopVariableActions kind? target span.start) ++
          exprStages target.defaults ++ stmtStages [body])
  | .function name parameters body span =>
      [.own (.ensure .boundary ⟨name, .function, span.start⟩),
        .inner (.function parameters body)]
  | .result value? _ => exprStages value?.toList
  | .imports bindings _ _ =>
      ownStages (ensureAll .innermost (bindings.map ImportBinding.declaration))
  | .exports declaration _ | .labeled _ declaration _ => stmtStages [declaration]
  | .leave _ | .skip _ | .empty _ => []
  | .guarded guardedBlock handler? finalizer? _ =>
      blockStages [guardedBlock] ++ handler?.toList.flatMap CatchClause.stages ++
        blockStages finalizer?.toList
  | .switch subject clauses _ =>
      exprStages [subject] ++
        stagesWithin .block (ownStages (enterBlock (clauses.flatMap SwitchClause.body)) ++
          clauses.flatMap SwitchClause.stages)
  | .classDef name superclass? members span =>
      [.own (.ensure .innermost ⟨name, .classDef, span.start⟩),
        .inner (.classBody superclass? members)]

def Construct.stages : Construct → List Stage
  | expr inner => inner.stages
  | stmt inner => inner.stages
  | block inner =>
      stagesWithin .block (ownStages (enterBlock inner.body) ++ stmtStages inner.body)
  | function parameters body =>
      stagesWithin .function (ownStages (declareParameters parameters) ++
        exprStages (parameters.flatMap Parameter.defaults) ++ ownStages (enterBody body.body) ++
        stmtStages body.body)
  | classBody superclass? members =>
      exprStages (superclass?.toList ++ members.flatMap fun inner => inner.value?.toList)

/-- The actions of some stages, one after the other. -/
def stageActions (stages : List Stage) : List Action :=
  stages.flatMap Stage.actions

section Stages

@[simp] theorem stageActions_nil : stageActions [] = [] := rfl

@[simp] theorem stageActions_cons (stage : Stage) (stages : List Stage) :
    stageActions (stage :: stages) = stage.actions ++ stageActions stages :=
  List.flatMap_cons

@[simp] theorem stageActions_append (stages others : List Stage) :
    stageActions (stages ++ others) = stageActions stages ++ stageActions others :=
  List.flatMap_append

@[simp] theorem stageActions_flatMap {α : Type} (items : List α) (stages : α → List Stage) :
    stageActions (items.flatMap stages) = items.flatMap fun item => stageActions (stages item) :=
  List.flatMap_assoc

@[simp] theorem stageActions_own (actions : List Action) :
    stageActions (ownStages actions) = actions := by
  rw [stageActions, ownStages, List.flatMap_map]
  exact List.flatMap_singleton' actions

@[simp] theorem stageActions_exprs (exprs : List Expr) :
    stageActions (exprStages exprs) = exprs.flatMap Expr.actions := by
  rw [stageActions, exprStages, List.flatMap_map]
  rfl

@[simp] theorem stageActions_stmts (stmts : List Stmt) :
    stageActions (stmtStages stmts) = stmts.flatMap Stmt.actions := by
  rw [stageActions, stmtStages, List.flatMap_map]
  rfl

@[simp] theorem stageActions_blocks (blocks : List Block) :
    stageActions (blockStages blocks) = blocks.flatMap Block.actions := by
  rw [stageActions, blockStages, List.flatMap_map]
  rfl

@[simp] theorem stageActions_within (kind : ScopeKind) (stages : List Stage) :
    stageActions (stagesWithin kind stages) = within kind (stageActions stages) := by
  simp [stagesWithin, within, Stage.actions]

@[simp] theorem stageActions_named (name? : Option Identifier) (kind : SymbolKind)
    (position : Nat) (construct : Construct) :
    stageActions (namedStages name? kind position construct) =
      withinName name? kind position construct.actions := by
  cases name? <;> simp [namedStages, withinName, Stage.actions]

@[simp] theorem Target.actions_eq (target : Target) :
    target.actions = target.defaults.flatMap Expr.actions := by
  cases target <;> simp [Target.actions, Target.defaults, List.flatMap_assoc]

@[simp] theorem stageActions_handler (handler : CatchClause) :
    stageActions handler.stages = handlerActions? (some handler) := by
  obtain ⟨parameter?, body, span⟩ := handler
  cases parameter? <;> simp [CatchClause.stages, handlerActions?]

theorem stageActions_expr (outer : Expr) : stageActions outer.stages = outer.actions := by
  cases outer with
  | update operator operand leading span =>
      cases operand <;>
        simp [Expr.stages, writtenStages, Stage.actions, Construct.actions, Expr.actions]
  | assignment operator target value span =>
      cases target <;>
        simp [Expr.stages, writtenStages, Stage.actions, Construct.actions, Expr.actions]
  | _ => simp [Expr.stages, Stage.actions, Construct.actions, Expr.actions, List.flatMap_map]

theorem stageActions_stmt (outer : Stmt) : stageActions outer.stages = outer.actions := by
  cases outer with
  | guarded block handler? finalizer? span =>
      rw [Stmt.actions, handlerActions?_eq]
      simp [Stmt.stages]
  | _ =>
      simp [Stmt.stages, Declarator.stages, SwitchClause.stages, Stage.actions, Construct.actions,
        Stmt.actions]

theorem stageActions_construct (construct : Construct) :
    stageActions construct.stages = construct.actions := by
  cases construct with
  | expr inner => exact stageActions_expr inner
  | stmt inner => exact stageActions_stmt inner
  | block inner => simp [Construct.stages, Construct.actions]
  | function parameters body =>
      simp [Construct.stages, Construct.actions, Parameter.defaults, List.flatMap_assoc]
  | classBody superclass? members =>
      simp [Construct.stages, Construct.actions, List.flatMap_assoc]

end Stages

/-- Reached root done construct: on its way through a script binding comes to a
construct, after it has done some actions. -/
inductive Reached (root : Block) : List Action → Construct → Prop
  | top {before after : List Stmt} {stmt : Stmt} (h : root.body = before ++ stmt :: after) :
      Reached root (.enter .script :: (enterBody root.body ++ stmtActions before)) (.stmt stmt)
  | deeper {done : List Action} {outer inner : Construct} {before after : List Stage}
      (houter : Reached root done outer) (h : outer.stages = before ++ .inner inner :: after) :
      Reached root (done ++ stageActions before) inner

/-- The actions of a construct lie between those done before and others, all in the
scope of the script. -/
theorem Reached.stretch {root : Block} {done : List Action} {construct : Construct}
    (h : Reached root done construct) :
    ∃ before after, done = .enter .script :: before ∧
      enterBody root.body ++ stmtActions root.body = before ++ construct.actions ++ after := by
  induction h with
  | @top before after stmt h =>
      refine ⟨enterBody root.body ++ stmtActions before, stmtActions after, rfl, ?_⟩
      rw [h]
      simp [Construct.actions]
  | @deeper done outer inner before after houter h ih =>
      obtain ⟨outerBefore, outerAfter, rfl, hstretch⟩ := ih
      refine ⟨outerBefore ++ stageActions before, stageActions after ++ outerAfter, rfl, ?_⟩
      rw [hstretch, ← stageActions_construct outer, h]
      simp [Stage.actions]

/-- The constructs that binding goes through for a node.  A name in an expression is
none, as binding does not go through it if it is written. -/
def Node.constructs : Node → List Construct
  | expr (.symbol _ _) | binding _ => []
  | expr inner => [.expr inner]
  | property entry => [.expr entry.value]
  | parameter inner => inner.defaults.map .expr
  | target inner => inner.defaults.map .expr
  | element inner => inner.default?.toList.map .expr
  | member inner => inner.value?.toList.map .expr
  | stmt inner => [.stmt inner]
  | block inner => inner.body.map .stmt
  | declarator inner => inner.value?.toList.map .expr ++ inner.target.defaults.map .expr
  | handler inner =>
      inner.parameter?.toList.flatMap (fun target => target.defaults.map .expr) ++
        [.block inner.body]
  | clause inner => inner.test?.toList.map .expr ++ inner.body.map .stmt

section Members

variable {inner : Construct}

@[simp] theorem inner_mem_own (actions : List Action) :
    .inner inner ∈ ownStages actions ↔ False := by
  simp [ownStages]

@[simp] theorem inner_mem_exprs (exprs : List Expr) :
    .inner inner ∈ exprStages exprs ↔ ∃ expr ∈ exprs, .expr expr = inner := by
  simp [exprStages]

@[simp] theorem inner_mem_stmts (stmts : List Stmt) :
    .inner inner ∈ stmtStages stmts ↔ ∃ stmt ∈ stmts, .stmt stmt = inner := by
  simp [stmtStages]

@[simp] theorem inner_mem_blocks (blocks : List Block) :
    .inner inner ∈ blockStages blocks ↔ ∃ block ∈ blocks, .block block = inner := by
  simp [blockStages]

@[simp] theorem inner_mem_within (kind : ScopeKind) (stages : List Stage) :
    .inner inner ∈ stagesWithin kind stages ↔ .inner inner ∈ stages := by
  simp [stagesWithin]

@[simp] theorem inner_mem_named (name? : Option Identifier) (kind : SymbolKind) (position : Nat)
    (construct : Construct) :
    .inner inner ∈ namedStages name? kind position construct ↔ inner = construct := by
  cases name? <;> simp [namedStages]

@[simp] theorem inner_mem_declarator (place : Place) (declarator : Declarator) :
    .inner inner ∈ declarator.stages place ↔ inner ∈ (Node.declarator declarator).constructs := by
  simp [Declarator.stages, Node.constructs, or_and_right, exists_or]

@[simp] theorem inner_mem_handler (handler : CatchClause) :
    .inner inner ∈ handler.stages ↔ inner ∈ (Node.handler handler).constructs := by
  simp [CatchClause.stages, Node.constructs, eq_comm]

@[simp] theorem inner_mem_clause (clause : SwitchClause) :
    .inner inner ∈ clause.stages ↔ inner ∈ (Node.clause clause).constructs := by
  simp [SwitchClause.stages, Node.constructs]

end Members

section Coverage

variable {root : Block}

/-- Binding comes to a construct of a script. -/
def Construct.Bound (root : Block) (construct : Construct) : Prop :=
  ∃ done, Reached root done construct

theorem Construct.Bound.inner {inner outer : Construct} (h : outer.Bound root)
    (hstage : .inner inner ∈ outer.stages) : inner.Bound root := by
  obtain ⟨done, houter⟩ := h
  obtain ⟨before, after, hstages⟩ := List.append_of_mem hstage
  exact ⟨_, houter.deeper hstages⟩

/-- Binding goes through a node. -/
def Node.Bound (root : Block) (node : Node) : Prop :=
  ∀ construct ∈ node.constructs, construct.Bound root

namespace Node.Bound

theorem of_expr {inner : Expr} (h : (Construct.expr inner).Bound root) :
    (expr inner).Bound root := by
  cases inner <;> simp_all [Bound, constructs]

theorem of_written {inner : Expr}
    (h : ∀ construct, .inner construct ∈ writtenStages inner → construct.Bound root) :
    (expr inner).Bound root := by
  cases inner with
  | symbol name span => simp [Bound, constructs]
  | _ => exact .of_expr (h _ List.mem_cons_self)

theorem of_block {inner : Block} (h : (Construct.block inner).Bound root) :
    (block inner).Bound root := by
  intro construct hconstruct
  apply h.inner
  simpa [Construct.stages, constructs] using hconstruct

theorem of_function {parameters : List Parameter} {body : Block}
    (h : (Construct.function parameters body).Bound root) :
    ∀ child ∈ parameters.map parameter ++ [block body], Bound root child := by
  intro child hchild construct hconstruct
  apply h.inner
  simp [Construct.stages] at hchild ⊢
  grind [constructs]

theorem of_class {superclass? : Option Expr} {members : List Member}
    (h : (Construct.classBody superclass? members).Bound root) :
    ∀ child ∈ superclass?.toList.map expr ++ members.map member, Bound root child := by
  have hstages : ∀ inner, .inner inner ∈ (Construct.classBody superclass? members).stages →
      inner.Bound root := fun _ => h.inner
  simp [Construct.stages, or_imp, forall_and] at hstages ⊢
  grind [constructs, Bound, of_expr]

theorem children_expr {outer : Expr} (h : (Construct.expr outer).Bound root) :
    ∀ child ∈ outer.children, Bound root child := by
  have hstages : ∀ inner, .inner inner ∈ outer.stages → inner.Bound root := fun _ => h.inner
  cases outer with
  | function name? parameters body arrow span =>
      exact of_function (hstages _ (by simp [Expr.stages]))
  | classDef name? superclass? members span =>
      exact of_class (hstages _ (by simp [Expr.stages]))
  | update operator operand leading span =>
      simp [Expr.stages, Expr.children] at hstages ⊢
      exact of_written hstages
  | assignment operator target value span =>
      simp [Expr.stages, Expr.children, or_imp, forall_and] at hstages ⊢
      exact ⟨of_written hstages.1, of_expr hstages.2⟩
  | _ =>
      simp [Expr.stages, Expr.children] at hstages ⊢ <;> grind [of_expr, Bound, constructs]

theorem children_stmt {outer : Stmt} (h : (Construct.stmt outer).Bound root) :
    ∀ child ∈ outer.children, Bound root child := by
  have hstages : ∀ inner, .inner inner ∈ outer.stages → inner.Bound root := fun _ => h.inner
  cases outer with
  | function name parameters body span =>
      exact of_function (hstages _ (by simp [Stmt.stages]))
  | classDef name superclass? members span =>
      exact of_class (hstages _ (by simp [Stmt.stages]))
  | _ =>
      simp [Stmt.stages, Stmt.children] at hstages ⊢ <;>
        grind [of_expr, of_block, Bound, constructs]

theorem children {outer : Node} (h : outer.Bound root) :
    ∀ child ∈ outer.children, Bound root child := by
  cases outer with
  | expr outer =>
      cases outer with
      | symbol name span => exact List.forall_mem_nil _
      | _ => exact children_expr (h _ List.mem_cons_self)
  | stmt outer => exact children_stmt (h _ List.mem_cons_self)
  | target outer =>
      simp only [Bound, constructs] at h
      cases outer with
      | name name => simp [Node.children, Target.children, Bound, constructs]
      | pattern elements nestedDefaults =>
          simp [Target.defaults] at h
          simp [Node.children, Target.children]
          grind [of_expr, Bound, constructs]
  | _ =>
      simp [Bound, constructs, Parameter.defaults] at h
      simp [Node.children] <;>
        grind [of_expr, of_block, Bound, constructs]

end Node.Bound

theorem Node.bound_of_inside {node : Node} (h : Node.Inside node (.block root)) :
    node.Bound root := by
  have hroot : (Node.block root).Bound root := by
    intro construct hconstruct
    obtain ⟨stmt, hstmt, rfl⟩ := List.mem_map.mp hconstruct
    obtain ⟨before, after, hbody⟩ := List.append_of_mem hstmt
    exact ⟨_, .top hbody⟩
  generalize Node.block root = outer at h hroot
  induction h with
  | self => exact hroot
  | deeper hchild hinside ih => exact ih (hroot.children _ hchild)

end Coverage

end ScriptKinds
