import ScriptKinds.Proofs.Scope.Coverage
import ScriptKinds.Proofs.Tree.Relabeling

namespace ScriptKinds

variable {respell : String → String}

/-- An identifier with its name respelled. -/
def Identifier.rename (respell : String → String) (name : Identifier) : Identifier :=
  ⟨respell name.name, name.id⟩

/-- A declaration with its name respelled. -/
def Declaration.rename (respell : String → String) (declaration : Declaration) : Declaration :=
  { declaration with name := declaration.name.rename respell }

/-- An action with its names respelled. -/
def Action.rename (respell : String → String) : Action → Action
  | .enter kind => .enter kind
  | .leave => .leave
  | .declare declaration => .declare (declaration.rename respell)
  | .ensure place declaration => .ensure place (declaration.rename respell)
  | .read name => .read (name.rename respell)
  | .write name position => .write (name.rename respell) position

section Actions

theorem Target.declarations_outline (target : Target) (kind : SymbolKind) (position : Nat) :
    (target.relabel (.outline respell)).declarations kind position =
      (target.declarations kind position).map (Declaration.rename respell) := by
  rw [Target.declarations, Target.names_relabel, Target.declarations, List.map_map, List.map_map]
  rfl

theorem declarators_outline (declarators : List Declarator) :
    (relabelDeclarators (.outline respell) declarators).flatMap Declarator.declarations =
      (declarators.flatMap Declarator.declarations).map (Declaration.rename respell) := by
  induction declarators with
  | nil => rfl
  | cons declarator others ih =>
      obtain ⟨target, value?, span⟩ := declarator
      simp only [relabelDeclarators, List.flatMap_cons, List.map_append, ih,
        Declarator.declarations, Target.declarations_outline]
      rfl

theorem imports_outline (bindings : List ImportBinding) :
    (bindings.map (ImportBinding.relabel (.outline respell))).map ImportBinding.declaration =
      (bindings.map ImportBinding.declaration).map (Declaration.rename respell) := by
  rw [List.map_map, List.map_map]
  rfl

mutual

theorem Stmt.hoisted_outline : ∀ stmt : Stmt,
    (stmt.relabel (.outline respell)).hoisted = stmt.hoisted.map (Declaration.rename respell)
  | .varDeclaration .var declarators _ => declarators_outline declarators
  | .varDeclaration .let_ _ _ | .varDeclaration .const _ _ => rfl
  | .function _ _ _ _ => rfl
  | .imports bindings _ _ => imports_outline bindings
  | .block ⟨_, body, _⟩ => hoistedAll_outline body
  | .conditional _ consequent alternate? _ => by
      simp only [Stmt.relabel, Stmt.hoisted, List.map_append, Stmt.hoisted_outline consequent,
        hoisted?_outline alternate?]
  | .whileLoop _ body _ | .doWhile body _ _ | .labeled _ body _ => Stmt.hoisted_outline body
  | .forLoop init? _ _ body _ _ => by
      simp only [Stmt.relabel, Stmt.hoisted, List.map_append, Stmt.hoisted_outline body,
        hoisted?_outline init?]
  | .forEach kind? target _ _ body _ span => by
      rcases kind? with _ | _ | _ | _ <;>
      simp only [Stmt.relabel, Stmt.hoisted, List.map_append, Stmt.hoisted_outline body,
        Target.declarations_outline]
      rfl
  | .exports declaration _ => Stmt.hoisted_outline declaration
  | .guarded ⟨_, body, _⟩ handler? finalizer? _ => by
      simp only [Stmt.relabel, Block.relabel, Stmt.hoisted, List.map_append,
        hoistedAll_outline body, hoistedHandler?_outline handler?,
        hoistedBlock?_outline finalizer?]
  | .switch _ clauses _ => hoistedClauses_outline clauses
  | .expression _ _ | .result _ _ | .leave _ | .skip _ | .empty _ | .raise _ _
  | .classDef _ _ _ _ => rfl

theorem hoisted?_outline : ∀ stmt? : Option Stmt,
    hoisted? (relabelStmt? (.outline respell) stmt?) =
      (hoisted? stmt?).map (Declaration.rename respell)
  | none => rfl
  | some stmt => Stmt.hoisted_outline stmt

theorem hoistedAll_outline : ∀ stmts : List Stmt,
    hoistedAll (relabelStmts (.outline respell) stmts) =
      (hoistedAll stmts).map (Declaration.rename respell)
  | [] => rfl
  | stmt :: others => by
      simp only [relabelStmts, hoistedAll, List.map_append, Stmt.hoisted_outline stmt,
        hoistedAll_outline others]

theorem hoistedBlock?_outline : ∀ block? : Option Block,
    hoistedBlock? (relabelBlock? (.outline respell) block?) =
      (hoistedBlock? block?).map (Declaration.rename respell)
  | none => rfl
  | some ⟨_, body, _⟩ => hoistedAll_outline body

theorem hoistedHandler?_outline : ∀ handler? : Option CatchClause,
    hoistedHandler? (relabelHandler? (.outline respell) handler?) =
      (hoistedHandler? handler?).map (Declaration.rename respell)
  | none => rfl
  | some ⟨_, ⟨_, body, _⟩, _⟩ => hoistedAll_outline body

theorem hoistedClauses_outline : ∀ clauses : List SwitchClause,
    hoistedClauses (relabelClauses (.outline respell) clauses) =
      (hoistedClauses clauses).map (Declaration.rename respell)
  | [] => rfl
  | ⟨_, body, _⟩ :: others => by
      simp only [relabelClauses, hoistedClauses, List.map_append, hoistedAll_outline body,
        hoistedClauses_outline others]

end

theorem declareAll_rename (declarations : List Declaration) :
    declareAll (declarations.map (Declaration.rename respell)) =
      (declareAll declarations).map (Action.rename respell) := by
  rw [declareAll, declareAll, List.map_map, List.map_map]
  rfl

theorem ensureAll_rename (place : Place) (declarations : List Declaration) :
    ensureAll place (declarations.map (Declaration.rename respell)) =
      (ensureAll place declarations).map (Action.rename respell) := by
  rw [ensureAll, ensureAll, List.map_map, List.map_map]
  rfl

theorem Stmt.ownLexical_outline (stmt : Stmt) :
    (stmt.relabel (.outline respell)).ownLexical =
      stmt.ownLexical.map (Declaration.rename respell) := by
  cases stmt with
  | varDeclaration kind declarators span =>
      cases kind with
      | var => rfl
      | let_ | const => exact declarators_outline declarators
  | _ => rfl

theorem Stmt.lexical_outline (stmt : Stmt) :
    (stmt.relabel (.outline respell)).lexical = stmt.lexical.map (Declaration.rename respell) := by
  have hunexported : (stmt.relabel (.outline respell)).unexported =
      stmt.unexported.relabel (.outline respell) := by
    cases stmt <;> rfl
  change (stmt.relabel (.outline respell)).unexported.ownLexical =
    stmt.unexported.ownLexical.map (Declaration.rename respell)
  rw [hunexported, ownLexical_outline]

theorem enterBlock_outline (body : List Stmt) :
    enterBlock (relabelStmts (.outline respell) body) =
      (enterBlock body).map (Action.rename respell) := by
  rw [enterBlock, enterBlock, ← declareAll_rename, relabelStmts_eq, List.flatMap_map,
    List.map_flatMap]
  simp only [Stmt.lexical_outline]

theorem enterBlock_outline? (stmt? : Option Stmt) :
    enterBlock (relabelStmt? (.outline respell) stmt?).toList =
      (enterBlock stmt?.toList).map (Action.rename respell) := by
  cases stmt? with
  | none => rfl
  | some stmt => exact enterBlock_outline [stmt]

theorem enterBody_outline (body : List Stmt) :
    enterBody (relabelStmts (.outline respell) body) =
      (enterBody body).map (Action.rename respell) := by
  rw [enterBody, enterBody, hoistedAll_outline, declareAll_rename, enterBlock_outline,
    List.map_append]

theorem declareParameters_outline (parameters : List Parameter) :
    declareParameters (relabelParameters (.outline respell) parameters) =
      (declareParameters parameters).map (Action.rename respell) := by
  rw [declareParameters, declareParameters, ← declareAll_rename]
  congr 1
  induction parameters with
  | nil => rfl
  | cons parameter others ih =>
      obtain ⟨target, default?, rest, span⟩ := parameter
      simp only [relabelParameters, List.flatMap_cons, List.map_append, ih,
        Target.declarations_outline]
      rfl

theorem clauseBodies_outline (clauses : List SwitchClause) :
    (relabelClauses (.outline respell) clauses).flatMap SwitchClause.body =
      relabelStmts (.outline respell) (clauses.flatMap SwitchClause.body) := by
  simp only [relabelStmts_eq]
  induction clauses with
  | nil => rfl
  | cons clause others ih =>
      obtain ⟨test?, body, span⟩ := clause
      simp only [relabelClauses, relabelStmts_eq, List.flatMap_cons, List.map_append, ih]

theorem within_rename (kind : ScopeKind) (actions : List Action) :
    within kind (actions.map (Action.rename respell)) =
      (within kind actions).map (Action.rename respell) := by
  simp only [within, List.map_cons, List.map_append]
  rfl

theorem withinName_rename (name? : Option Identifier) (kind : SymbolKind) (position : Nat)
    (actions : List Action) :
    withinName (name?.map (Identifier.rename respell)) kind position
        (actions.map (Action.rename respell)) =
      (withinName name? kind position actions).map (Action.rename respell) := by
  cases name? with
  | none => rfl
  | some name => exact within_rename .block (.declare ⟨name, kind, position⟩ :: actions)

theorem loopVariableActions_outline (kind? : Option DeclarationKind) (target : Target)
    (position : Nat) :
    loopVariableActions kind? (target.relabel (.outline respell)) position =
      (loopVariableActions kind? target position).map (Action.rename respell) := by
  rcases kind? with _ | _ | _ | _
  · simp only [loopVariableActions, Target.names_relabel, List.map_map]
    rfl
  · rw [loopVariableActions, loopVariableActions, Target.declarations_outline, ensureAll_rename]
  · rw [loopVariableActions, loopVariableActions, Target.declarations_outline, declareAll_rename]
    all_goals simp
  · rw [loopVariableActions, loopVariableActions, Target.declarations_outline, declareAll_rename]
    all_goals simp

theorem Expr.actions_update {operator : Token} {operand : Expr} {leading : Bool} {span : Span}
    (h : (operand.relabel (.outline respell)).actions =
      operand.actions.map (Action.rename respell)) :
    ((Expr.update operator operand leading span).relabel (.outline respell)).actions =
      (Expr.update operator operand leading span).actions.map (Action.rename respell) := by
  cases operand <;> first | rfl | exact h

theorem Expr.actions_assignment {operator : Token} {target value : Expr} {span : Span}
    (htarget : (target.relabel (.outline respell)).actions =
      target.actions.map (Action.rename respell))
    (hvalue : (value.relabel (.outline respell)).actions =
      value.actions.map (Action.rename respell)) :
    ((Expr.assignment operator target value span).relabel (.outline respell)).actions =
      (Expr.assignment operator target value span).actions.map (Action.rename respell) := by
  cases target with
  | symbol name nameSpan => exact congrArg (Action.rename respell (.write name _) :: ·) hvalue
  | _ => exact (congrArg₂ (· ++ ·) htarget hvalue).trans List.map_append.symm

theorem parameterPart_outline {parameters : List Parameter}
    (h : parameterActions (relabelParameters (.outline respell) parameters) =
      (parameterActions parameters).map (Action.rename respell)) :
    declareParameters (relabelParameters (.outline respell) parameters) ++
        parameterActions (relabelParameters (.outline respell) parameters) =
      (declareParameters parameters ++ parameterActions parameters).map
        (Action.rename respell) := by
  rw [declareParameters_outline, h, List.map_append]

mutual

theorem Expr.actions_outline : ∀ expr : Expr,
    (expr.relabel (.outline respell)).actions = expr.actions.map (Action.rename respell)
  | .number _ _ | .string _ _ _ | .boolean _ _ | .null _ | .regex _ _ _ | .symbol _ _ => rfl
  | .array elements _ => exprActions_outline elements
  | .object properties _ => propertyActions_outline properties
  | .function name? parameters body _ span => by
      simp only [Expr.relabel, Expr.actions,
        parameterPart_outline (parameterActions_outline parameters), functionActions_outline _ body]
      exact withinName_rename name? .function span.start _
  | .binary _ left right _ => by
      simp only [Expr.relabel, Expr.actions, List.map_append, Expr.actions_outline left,
        Expr.actions_outline right]
  | .unary _ operand _ => Expr.actions_outline operand
  | .update _ operand _ _ => Expr.actions_update (Expr.actions_outline operand)
  | .assignment _ target value _ =>
      Expr.actions_assignment (Expr.actions_outline target) (Expr.actions_outline value)
  | .call callee arguments _ | .new callee arguments _ => by
      simp only [Expr.relabel, Expr.actions, List.map_append, Expr.actions_outline callee,
        exprActions_outline arguments]
  | .member object _ _ => Expr.actions_outline object
  | .index object index _ => by
      simp only [Expr.relabel, Expr.actions, List.map_append, Expr.actions_outline object,
        Expr.actions_outline index]
  | .conditional test consequent alternate _ => by
      simp only [Expr.relabel, Expr.actions, List.map_append, Expr.actions_outline test,
        Expr.actions_outline consequent, Expr.actions_outline alternate]
  | .template _ substitutions _ => exprActions_outline substitutions
  | .sequence operands _ => exprActions_outline operands
  | .spread argument _ => Expr.actions_outline argument
  | .classDef name? superclass? members span => by
      simp only [Expr.relabel, Expr.actions, exprActions?_outline superclass?,
        memberActions_outline members, ← List.map_append]
      exact withinName_rename name? .classDef span.start _

theorem exprActions_outline : ∀ exprs : List Expr,
    exprActions (relabelExprs (.outline respell) exprs) =
      (exprActions exprs).map (Action.rename respell)
  | [] => rfl
  | expr :: others => by
      simp only [relabelExprs, exprActions, List.map_append, Expr.actions_outline expr,
        exprActions_outline others]

theorem exprActions?_outline : ∀ expr? : Option Expr,
    exprActions? (relabelExpr? (.outline respell) expr?) =
      (exprActions? expr?).map (Action.rename respell)
  | none => rfl
  | some expr => Expr.actions_outline expr

theorem propertyActions_outline : ∀ properties : List Property,
    propertyActions (relabelProperties (.outline respell) properties) =
      (propertyActions properties).map (Action.rename respell)
  | [] => rfl
  | ⟨_, value⟩ :: others => by
      simp only [relabelProperties, propertyActions, List.map_append, Expr.actions_outline value,
        propertyActions_outline others]

theorem elementActions_outline : ∀ elements : List PatternElement,
    elementActions (relabelElements (.outline respell) elements) =
      (elementActions elements).map (Action.rename respell)
  | [] => rfl
  | ⟨_, default?, _⟩ :: others => by
      simp only [relabelElements, elementActions, List.map_append, exprActions?_outline default?,
        elementActions_outline others]

theorem Target.actions_outline : ∀ target : Target,
    (target.relabel (.outline respell)).actions = target.actions.map (Action.rename respell)
  | .name _ => rfl
  | .pattern elements nestedDefaults => by
      simp only [Target.relabel, Target.actions, List.map_append, elementActions_outline elements,
        exprActions_outline nestedDefaults]

theorem parameterActions_outline : ∀ parameters : List Parameter,
    parameterActions (relabelParameters (.outline respell) parameters) =
      (parameterActions parameters).map (Action.rename respell)
  | [] => rfl
  | ⟨target, default?, _, _⟩ :: others => by
      simp only [relabelParameters, parameterActions, List.map_append,
        Target.actions_outline target, exprActions?_outline default?,
        parameterActions_outline others]

theorem functionActions_outline (parameters : List Action) : ∀ body : Block,
    functionActions (parameters.map (Action.rename respell)) (body.relabel (.outline respell)) =
      (functionActions parameters body).map (Action.rename respell)
  | ⟨_, body, _⟩ => by
      simp only [Block.relabel, functionActions, enterBody_outline, stmtActions_outline body,
        ← List.map_append, within_rename]

theorem memberActions_outline : ∀ members : List Member,
    memberActions (relabelMembers (.outline respell) members) =
      (memberActions members).map (Action.rename respell)
  | [] => rfl
  | ⟨_, _, value?, _⟩ :: others => by
      simp only [relabelMembers, memberActions, List.map_append, exprActions?_outline value?,
        memberActions_outline others]

theorem Block.actions_outline : ∀ block : Block,
    (block.relabel (.outline respell)).actions = block.actions.map (Action.rename respell)
  | ⟨_, body, _⟩ => by
      simp only [Block.relabel, Block.actions, enterBlock_outline, stmtActions_outline body,
        ← List.map_append, within_rename]

theorem blockActions?_outline : ∀ block? : Option Block,
    blockActions? (relabelBlock? (.outline respell) block?) =
      (blockActions? block?).map (Action.rename respell)
  | none => rfl
  | some block => Block.actions_outline block

theorem declaratorActions_outline (place : Place) : ∀ declarators : List Declarator,
    declaratorActions place (relabelDeclarators (.outline respell) declarators) =
      (declaratorActions place declarators).map (Action.rename respell)
  | [] => rfl
  | ⟨target, value?, span⟩ :: others => by
      simp only [relabelDeclarators, declaratorActions, List.map_append,
        Target.declarations_outline, ensureAll_rename, exprActions?_outline value?,
        Target.actions_outline target, declaratorActions_outline place others]
      rfl

theorem handlerActions?_outline : ∀ handler? : Option CatchClause,
    handlerActions? (relabelHandler? (.outline respell) handler?) =
      (handlerActions? handler?).map (Action.rename respell)
  | none => rfl
  | some ⟨none, body, _⟩ => by
      simp only [relabelHandler?, relabelTarget?, handlerActions?, Block.actions_outline body,
        within_rename]
  | some ⟨some target, body, span⟩ => by
      simp only [relabelHandler?, relabelTarget?, handlerActions?, Block.actions_outline body,
        Target.actions_outline target, Target.declarations_outline, declareAll_rename,
        ← List.map_append, within_rename]
      rfl

theorem clauseActions_outline : ∀ clauses : List SwitchClause,
    clauseActions (relabelClauses (.outline respell) clauses) =
      (clauseActions clauses).map (Action.rename respell)
  | [] => rfl
  | ⟨test?, body, _⟩ :: others => by
      simp only [relabelClauses, clauseActions, List.map_append, exprActions?_outline test?,
        stmtActions_outline body, clauseActions_outline others]

theorem Stmt.actions_outline : ∀ stmt : Stmt,
    (stmt.relabel (.outline respell)).actions = stmt.actions.map (Action.rename respell)
  | .expression value _ | .raise value _ => Expr.actions_outline value
  | .block block => Block.actions_outline block
  | .varDeclaration kind declarators _ => declaratorActions_outline kind.place declarators
  | .conditional condition consequent alternate? _ => by
      simp only [Stmt.relabel, Stmt.actions, List.map_append, Expr.actions_outline condition,
        Stmt.actions_outline consequent, stmtActions?_outline alternate?]
  | .whileLoop condition body _ | .doWhile body condition _ => by
      simp only [Stmt.relabel, Stmt.actions, List.map_append, Expr.actions_outline condition,
        Stmt.actions_outline body]
  | .forLoop init? condition? update? body _ _ => by
      simp only [Stmt.relabel, Stmt.actions, enterBlock_outline?, stmtActions?_outline init?,
        exprActions?_outline condition?, exprActions?_outline update?, Stmt.actions_outline body,
        ← List.map_append, within_rename]
  | .forEach kind? target _ subject body _ span => by
      simp only [Stmt.relabel, Stmt.actions, loopVariableActions_outline,
        Expr.actions_outline subject, Target.actions_outline target, Stmt.actions_outline body,
        ← List.map_append, within_rename]
      rfl
  | .function name parameters body span => by
      simp only [Stmt.relabel, Stmt.actions,
        parameterPart_outline (parameterActions_outline parameters), functionActions_outline _ body]
      rfl
  | .result value? _ => exprActions?_outline value?
  | .imports bindings _ _ => by
      simp only [Stmt.relabel, Stmt.actions, imports_outline, ensureAll_rename]
  | .exports declaration _ => Stmt.actions_outline declaration
  | .leave _ | .skip _ | .empty _ => rfl
  | .guarded block handler? finalizer? _ => by
      simp only [Stmt.relabel, Stmt.actions, List.map_append, Block.actions_outline block,
        handlerActions?_outline handler?, blockActions?_outline finalizer?]
  | .switch subject clauses _ => by
      simp only [Stmt.relabel, Stmt.actions, clauseBodies_outline, enterBlock_outline,
        Expr.actions_outline subject, clauseActions_outline clauses, ← List.map_append,
        within_rename]
  | .labeled _ body _ => Stmt.actions_outline body
  | .classDef name superclass? members span => by
      simp only [Stmt.relabel, Stmt.actions, List.map_append, List.map_cons,
        exprActions?_outline superclass?, memberActions_outline members]
      rfl

theorem stmtActions?_outline : ∀ stmt? : Option Stmt,
    stmtActions? (relabelStmt? (.outline respell) stmt?) =
      (stmtActions? stmt?).map (Action.rename respell)
  | none => rfl
  | some stmt => Stmt.actions_outline stmt

theorem stmtActions_outline : ∀ stmts : List Stmt,
    stmtActions (relabelStmts (.outline respell) stmts) =
      (stmtActions stmts).map (Action.rename respell)
  | [] => rfl
  | stmt :: others => by
      simp only [relabelStmts, stmtActions, List.map_append, Stmt.actions_outline stmt,
        stmtActions_outline others]

end

theorem scriptActions_outline (root : Block) :
    scriptActions (root.relabel (.outline respell)) =
      (scriptActions root).map (Action.rename respell) := by
  obtain ⟨id, body, span⟩ := root
  simp only [scriptActions, Block.relabel, enterBody_outline, stmtActions_outline,
    ← List.map_append, within_rename]

end Actions

end ScriptKinds
