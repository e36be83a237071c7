import ScriptKinds.Proofs.Tree.Node
import ScriptKinds.Scope.Action

namespace ScriptKinds

/-- The byte offset at which an action may declare a symbol. -/
def Action.position? : Action → Option Nat
  | .declare declaration | .ensure _ declaration => some declaration.position
  | .write _ position => some position
  | .enter _ | .leave | .read _ => none

/-- The offsets at which actions declare or write names. -/
def positionsOf (actions : List Action) : List Nat :=
  actions.filterMap Action.position?

section Lists

@[simp] theorem positionsOf_nil : positionsOf [] = [] := rfl

@[simp] theorem positionsOf_cons (action : Action) (actions : List Action) :
    positionsOf (action :: actions) = action.position?.toList ++ positionsOf actions := by
  rw [positionsOf, List.filterMap_cons]
  cases action.position? <;> rfl

@[simp] theorem positionsOf_append (actions others : List Action) :
    positionsOf (actions ++ others) = positionsOf actions ++ positionsOf others :=
  List.filterMap_append

@[simp] theorem positionsOf_flatMap {α : Type} (items : List α) (actions : α → List Action) :
    positionsOf (items.flatMap actions) = items.flatMap fun item => positionsOf (actions item) :=
  List.filterMap_flatMap

@[simp] theorem positionsOf_declareAll (declarations : List Declaration) :
    positionsOf (declareAll declarations) = declarations.map Declaration.position := by
  rw [positionsOf, declareAll, List.filterMap_map]
  exact congrFun (List.filterMap_eq_map (f := Declaration.position)) declarations

@[simp] theorem positionsOf_ensureAll (place : Place) (declarations : List Declaration) :
    positionsOf (ensureAll place declarations) = declarations.map Declaration.position := by
  rw [positionsOf, ensureAll, List.filterMap_map]
  exact congrFun (List.filterMap_eq_map (f := Declaration.position)) declarations

@[simp] theorem positionsOf_within (kind : ScopeKind) (actions : List Action) :
    positionsOf (within kind actions) = positionsOf actions := by
  simp [within, Action.position?]

@[simp] theorem positionsOf_withinName (name? : Option Identifier) (kind : SymbolKind)
    (position : Nat) (actions : List Action) :
    positionsOf (withinName name? kind position actions) =
      name?.toList.map (fun _ => position) ++ positionsOf actions := by
  cases name? <;> simp [withinName, Action.position?]

@[simp] theorem Target.position_declarations (target : Target) (kind : SymbolKind)
    (position : Nat) :
    (target.declarations kind position).map Declaration.position =
      target.names.map fun _ => position := by
  rw [Target.declarations, List.map_map]
  rfl

@[simp] theorem positionsOf_declareParameters (parameters : List Parameter) :
    positionsOf (declareParameters parameters) =
      parameters.flatMap fun parameter => parameter.target.names.map fun _ => parameter.span.start := by
  simp [declareParameters, List.map_flatMap]

@[simp] theorem positionsOf_loopVariable (kind? : Option DeclarationKind) (target : Target)
    (position : Nat) :
    positionsOf (loopVariableActions kind? target position) = target.names.map fun _ => position := by
  rcases kind? with _ | _ | _ | _
  · rw [loopVariableActions, positionsOf, List.filterMap_map]
    exact congrFun (List.filterMap_eq_map (f := fun _ => position)) target.names
  all_goals simp [loopVariableActions]

@[simp] theorem Declarator.position_declarations (declarator : Declarator) :
    declarator.declarations.map Declaration.position =
      declarator.target.names.map fun _ => declarator.span.start := by
  simp [Declarator.declarations]

@[simp] theorem exprActions_eq (exprs : List Expr) :
    exprActions exprs = exprs.flatMap Expr.actions := by
  induction exprs with
  | nil => rfl
  | cons expr others ih => rw [exprActions, ih, List.flatMap_cons]

@[simp] theorem exprActions?_eq (expr? : Option Expr) :
    exprActions? expr? = expr?.toList.flatMap Expr.actions := by
  cases expr? <;> simp [exprActions?]

@[simp] theorem propertyActions_eq (properties : List Property) :
    propertyActions properties = properties.flatMap fun entry => entry.value.actions := by
  induction properties with
  | nil => rfl
  | cons entry others ih =>
      obtain ⟨key, value⟩ := entry
      rw [propertyActions, ih, List.flatMap_cons]

@[simp] theorem elementActions_eq (elements : List PatternElement) :
    elementActions elements = elements.flatMap fun entry => exprActions? entry.default? := by
  induction elements with
  | nil => rfl
  | cons entry others ih =>
      obtain ⟨name, default?, span⟩ := entry
      rw [elementActions, ih, List.flatMap_cons]

@[simp] theorem parameterActions_eq (parameters : List Parameter) :
    parameterActions parameters = parameters.flatMap fun parameter =>
      exprActions? parameter.default? ++ parameter.target.actions := by
  induction parameters with
  | nil => rfl
  | cons parameter others ih =>
      obtain ⟨target, default?, rest, span⟩ := parameter
      rw [parameterActions, ih, List.flatMap_cons]

@[simp] theorem memberActions_eq (members : List Member) :
    memberActions members = members.flatMap fun inner => exprActions? inner.value? := by
  induction members with
  | nil => rfl
  | cons inner others ih =>
      obtain ⟨key, isStatic, value?, span⟩ := inner
      rw [memberActions, ih, List.flatMap_cons]

@[simp] theorem blockActions?_eq (block? : Option Block) :
    blockActions? block? = block?.toList.flatMap Block.actions := by
  cases block? <;> simp [blockActions?]

@[simp] theorem declaratorActions_eq (place : Place) (declarators : List Declarator) :
    declaratorActions place declarators = declarators.flatMap fun declarator =>
      ensureAll place declarator.declarations ++ exprActions? declarator.value? ++
        declarator.target.actions := by
  induction declarators with
  | nil => rfl
  | cons declarator others ih =>
      obtain ⟨target, value?, span⟩ := declarator
      rw [declaratorActions, ih, List.flatMap_cons]
      rfl

theorem handlerActions?_eq (handler? : Option CatchClause) :
    handlerActions? handler? =
      handler?.toList.flatMap fun handler => handlerActions? (some handler) := by
  cases handler? with
  | none => rfl
  | some handler => rw [Option.toList_some, List.flatMap_singleton]

@[simp] theorem clauseActions_eq (clauses : List SwitchClause) :
    clauseActions clauses = clauses.flatMap fun clause =>
      exprActions? clause.test? ++ stmtActions clause.body := by
  induction clauses with
  | nil => rfl
  | cons clause others ih =>
      obtain ⟨test?, body, span⟩ := clause
      rw [clauseActions, ih, List.flatMap_cons]

@[simp] theorem stmtActions?_eq (stmt? : Option Stmt) :
    stmtActions? stmt? = stmt?.toList.flatMap Stmt.actions := by
  cases stmt? <;> simp [stmtActions?]

@[simp] theorem stmtActions_eq (stmts : List Stmt) :
    stmtActions stmts = stmts.flatMap Stmt.actions := by
  induction stmts with
  | nil => rfl
  | cons stmt others ih => rw [stmtActions, ih, List.flatMap_cons]

@[simp] theorem hoisted?_eq (stmt? : Option Stmt) :
    hoisted? stmt? = stmt?.toList.flatMap Stmt.hoisted := by
  cases stmt? <;> simp [hoisted?]

@[simp] theorem hoistedAll_eq (stmts : List Stmt) :
    hoistedAll stmts = stmts.flatMap Stmt.hoisted := by
  induction stmts with
  | nil => rfl
  | cons stmt others ih => rw [hoistedAll, ih, List.flatMap_cons]

@[simp] theorem hoistedBlock?_eq (block? : Option Block) :
    hoistedBlock? block? = block?.toList.flatMap fun block => hoistedAll block.body := by
  rcases block? with _ | ⟨id, body, span⟩ <;> simp [hoistedBlock?]

@[simp] theorem hoistedHandler?_eq (handler? : Option CatchClause) :
    hoistedHandler? handler? = handler?.toList.flatMap fun handler =>
      hoistedAll handler.body.body := by
  rcases handler? with _ | ⟨parameter?, ⟨id, body, bodySpan⟩, span⟩ <;> simp [hoistedHandler?]

@[simp] theorem hoistedClauses_eq (clauses : List SwitchClause) :
    hoistedClauses clauses = clauses.flatMap fun clause => hoistedAll clause.body := by
  induction clauses with
  | nil => rfl
  | cons clause others ih =>
      obtain ⟨test?, body, span⟩ := clause
      rw [hoistedClauses, ih, List.flatMap_cons]

@[simp] theorem Stmt.hoisted_block (inner : Block) :
    (Stmt.block inner).hoisted = hoistedAll inner.body := by
  cases inner
  rfl

@[simp] theorem Stmt.hoisted_guarded (inner : Block) (handler? : Option CatchClause)
    (finalizer? : Option Block) (span : Span) :
    (Stmt.guarded inner handler? finalizer? span).hoisted =
      hoistedAll inner.body ++ hoistedHandler? handler? ++ hoistedBlock? finalizer? := by
  cases inner
  rfl

@[simp] theorem Block.actions_eq (inner : Block) :
    inner.actions = within .block (enterBlock inner.body ++ stmtActions inner.body) := by
  cases inner
  rfl

@[simp] theorem functionActions_eq (parameters : List Action) (inner : Block) :
    functionActions parameters inner =
      within .function (parameters ++ enterBody inner.body ++ stmtActions inner.body) := by
  cases inner
  rfl

end Lists

namespace Node

/-- The byte offsets at which a node itself declares or writes names. -/
def marks : Node → List Nat
  | expr (.function name? _ _ _ span) | expr (.classDef name? _ _ span) =>
      name?.toList.map fun _ => span.start
  | expr (.update _ (.symbol _ span) _ _) | expr (.assignment _ (.symbol _ span) _ _) =>
      [span.start]
  | stmt (.function _ _ _ span) | stmt (.classDef _ _ _ span)
  | stmt (.forEach _ _ _ _ _ _ span) => [span.start]
  | parameter inner => inner.target.names.map fun _ => inner.span.start
  | declarator inner => inner.target.names.map fun _ => inner.span.start
  | binding inner => [inner.span.start]
  | handler inner => [inner.span.start]
  | _ => []

/-- What a node does to scopes: its actions, and the declarations in it that are
carried out when a scope around it is entered. -/
def actions : Node → List Action
  | expr inner => inner.actions
  | property entry => entry.value.actions
  | parameter inner => declareParameters [inner] ++ parameterActions [inner]
  | target inner => inner.actions
  | element inner => exprActions? inner.default?
  | member inner => exprActions? inner.value?
  | stmt inner => declareAll inner.hoisted ++ declareAll inner.lexical ++ inner.actions
  | block inner => enterBody inner.body ++ stmtActions inner.body
  | binding inner => [.declare inner.declaration]
  | declarator inner => declareAll inner.declarations ++ declaratorActions .boundary [inner]
  | handler inner => declareAll (hoistedHandler? (some inner)) ++ handlerActions? (some inner)
  | clause inner => enterBody inner.body ++ clauseActions [inner]

/-- The offsets at which the actions of a node declare or write names. -/
def positions (node : Node) : List Nat :=
  positionsOf node.actions

/-- The offsets that a node marks itself, and those of its children. -/
def outlook (node : Node) : List Nat :=
  node.marks ++ node.children.flatMap positions

theorem positions_expr (outer : Expr) : (expr outer).positions ⊆ (expr outer).outlook := by
  intro position h
  cases outer with
  | function name? parameters body arrow span =>
      simp [outlook, marks, children, Expr.children, List.flatMap_map, positions, actions,
        Expr.actions, enterBody] at h ⊢
      grind
  | update operator operand leading span =>
      cases operand <;>
        simp_all [outlook, marks, children, Expr.children, positions, actions, Expr.actions,
          Action.position?]
  | assignment operator target value span =>
      cases target <;>
        simp_all [outlook, marks, children, Expr.children, positions, actions, Expr.actions,
          Action.position?]
  | _ =>
      simp_all [outlook, marks, children, Expr.children, List.flatMap_map, positions, actions,
        Expr.actions, Action.position?]

theorem positions_hoisted (outer : Stmt) :
    outer.hoisted.map Declaration.position ⊆ (stmt outer).outlook := by
  intro position h
  cases outer with
  | varDeclaration kind declarators span =>
      cases kind <;>
        simp [outlook, marks, children, Stmt.children, List.flatMap_map, positions, actions,
          Stmt.hoisted, List.map_flatMap] at h ⊢
      grind
  | forEach kind? target overValues subject body id span =>
      rcases kind? with _ | _ | _ | _ <;>
        simp [outlook, marks, children, Stmt.children, positions, actions, Stmt.hoisted] at h ⊢ <;>
        grind
  | _ =>
      simp [outlook, marks, children, Stmt.children, List.flatMap_map, positions, actions,
        Stmt.hoisted, List.map_flatMap, enterBody, ImportBinding.declaration,
        Action.position?] at h ⊢ <;>
        grind

theorem lexical_exports (declaration : Stmt) (span : Span) :
    (Stmt.exports declaration span).lexical ⊆ declaration.lexical := by
  cases declaration <;> simp [Stmt.lexical, Stmt.unexported]

theorem positions_lexical (outer : Stmt) :
    outer.lexical.map Declaration.position ⊆ (stmt outer).outlook := by
  intro position h
  cases outer with
  | varDeclaration kind declarators span =>
      cases kind <;>
        simp [outlook, marks, children, Stmt.children, List.flatMap_map, positions, actions,
          Stmt.lexical, Stmt.unexported, List.map_flatMap] at h ⊢ <;>
        grind
  | exports declaration span =>
      obtain ⟨inner, hinner, rfl⟩ := List.mem_map.mp h
      have hlexical := lexical_exports declaration span hinner
      simp [outlook, marks, children, Stmt.children, positions, actions]
      grind
  | _ => simp_all [outlook, marks, Stmt.lexical, Stmt.unexported]

theorem positions_actions (outer : Stmt) : positionsOf outer.actions ⊆ (stmt outer).outlook := by
  intro position h
  cases outer with
  | guarded block handler? finalizer? span =>
      rw [Stmt.actions, handlerActions?_eq] at h
      simp [outlook, marks, children, Stmt.children, List.flatMap_map, positions, actions,
        enterBody, enterBlock, List.map_flatMap] at h ⊢
      grind
  | _ =>
      simp [outlook, marks, children, Stmt.children, List.flatMap_map, positions, actions,
        Stmt.actions, List.map_flatMap, enterBody, enterBlock, ImportBinding.declaration,
        Action.position?] at h ⊢ <;>
        grind

theorem positions_stmt (outer : Stmt) : (stmt outer).positions ⊆ (stmt outer).outlook := by
  simp only [positions, actions, positionsOf_append, positionsOf_declareAll, List.append_subset]
  exact ⟨⟨positions_hoisted outer, positions_lexical outer⟩, positions_actions outer⟩

theorem positions_subset (node : Node) : node.positions ⊆ node.outlook := by
  cases node with
  | expr outer => exact positions_expr outer
  | stmt outer => exact positions_stmt outer
  | target outer =>
      intro position h
      cases outer <;>
        simp_all [outlook, marks, children, Target.children, List.flatMap_map, positions, actions,
          Target.actions]
  | handler outer =>
      intro position h
      obtain ⟨parameter?, body, span⟩ := outer
      cases parameter? <;>
        simp [outlook, marks, children, positions, actions, handlerActions?, enterBody, enterBlock,
          List.map_flatMap] at h ⊢ <;>
        grind
  | _ =>
      intro position h
      simp [outlook, marks, children, List.flatMap_map, positions, actions,
        ImportBinding.declaration, Action.position?, enterBody, enterBlock,
        List.map_flatMap] at h ⊢
      grind

/-- Every offset at which a node declares or writes a name is the mark of some
node in it. -/
theorem marked_of_mem_positions {node : Node} {position : Nat} (h : position ∈ node.positions) :
    ∃ inner, Inside inner node ∧ position ∈ inner.marks := by
  rcases List.mem_append.mp (positions_subset node h) with hmark | hchildren
  · exact ⟨node, .self node, hmark⟩
  · obtain ⟨child, hchild, hposition⟩ := List.mem_flatMap.mp hchildren
    obtain ⟨inner, hinside, hmark⟩ := marked_of_mem_positions hposition
    exact ⟨inner, .deeper hchild hinside, hmark⟩
termination_by sizeOf node
decreasing_by exact sizeOf_child hchild

end Node

theorem positionsOf_script (root : Block) :
    positionsOf (scriptActions root) = (Node.block root).positions :=
  positionsOf_within _ _

end ScriptKinds
