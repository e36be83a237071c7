import ScriptKinds.Proofs.Scope.Site

namespace ScriptKinds

/-- The names among some numbered nodes. -/
def namesOf (nodes : List Numbered) : List Identifier :=
  nodes.filterMap Numbered.name?

theorem namesOf_append (nodes others : List Numbered) :
    namesOf (nodes ++ others) = namesOf nodes ++ namesOf others :=
  List.filterMap_append

theorem namesOf_name (name : Identifier) (nodes : List Numbered) :
    namesOf (.name name :: nodes) = name :: namesOf nodes := rfl

theorem namesOf_construct (id : NodeId) (nodes : List Numbered) :
    namesOf (.construct id :: nodes) = namesOf nodes := rfl

theorem namesOf_named (names : List Identifier) : namesOf (names.map .name) = names := by
  induction names with
  | nil => rfl
  | cons name others ih => rw [List.map_cons, namesOf_name, ih]

theorem namesOf_parameters (parameters : List Parameter) :
    namesOf (parameters.flatMap fun parameter => parameter.target.named) =
      parameterNames parameters := by
  induction parameters with
  | nil => rfl
  | cons parameter others ih =>
      rw [List.flatMap_cons, namesOf_append, ih, Target.named, namesOf_named]
      rfl

theorem names_sitesOf (role : Role) (scopes : List OpenScope) (names : List Identifier) :
    (sitesOf role scopes names).map Site.name = names := by
  rw [sitesOf, List.map_map]
  exact List.map_id names

theorem names_nameSites (name? : Option Identifier) (scopes : List OpenScope) (next : ScopeId) :
    (nameSites name? scopes next).map Site.name = namesOf (namedBy name?) := by
  rw [nameSites, names_sitesOf, namedBy, namesOf_named]

variable (scopes : List OpenScope) (next : ScopeId)

theorem Expr.names_update {operator : Token} {operand : Expr} {leading : Bool} {span : Span}
    (h : (operand.sites scopes next).map Site.name = namesOf operand.numbered) :
    ((Expr.update operator operand leading span).sites scopes next).map Site.name =
      namesOf (Expr.update operator operand leading span).numbered := by
  cases operand <;> first | rfl | exact h

theorem Expr.names_assignment {operator : Token} {target value : Expr} {span : Span}
    (htarget : (target.sites scopes next).map Site.name = namesOf target.numbered)
    (hvalue : ∀ next, (value.sites scopes next).map Site.name = namesOf value.numbered) :
    ((Expr.assignment operator target value span).sites scopes next).map Site.name =
      namesOf (Expr.assignment operator target value span).numbered := by
  rw [Expr.numbered, namesOf_append, ← htarget]
  cases target with
  | symbol name span => exact congrArg (name :: ·) (hvalue next)
  | _ => exact List.map_append.trans (congrArg (_ ++ ·) (hvalue _))

mutual

theorem Expr.names_sites (scopes : List OpenScope) (next : ScopeId) : ∀ expr : Expr,
    (expr.sites scopes next).map Site.name = namesOf expr.numbered
  | .number _ _ | .string _ _ _ | .boolean _ _ | .null _ | .regex _ _ _ | .symbol _ _ => rfl
  | .array elements _ => names_exprSites scopes next elements
  | .object properties _ => names_propertySites scopes next properties
  | .function _ parameters body _ _ => by
      simp only [Expr.sites, Expr.numbered, List.map_append, namesOf_append, names_nameSites,
        names_functionSites _ _ _ _ body, names_parameterSites _ _ parameters,
        namesOf_parameters, List.append_assoc]
  | .binary _ left right _ => by
      simp only [Expr.sites, Expr.numbered, List.map_append, namesOf_append,
        Expr.names_sites scopes _ left, Expr.names_sites scopes _ right]
  | .unary _ operand _ => Expr.names_sites scopes next operand
  | .update _ operand _ _ => Expr.names_update scopes next (Expr.names_sites scopes next operand)
  | .assignment _ target value _ =>
      Expr.names_assignment scopes next (Expr.names_sites scopes next target)
        fun next => Expr.names_sites scopes next value
  | .call callee arguments _ | .new callee arguments _ => by
      simp only [Expr.sites, Expr.numbered, List.map_append, namesOf_append,
        Expr.names_sites scopes _ callee, names_exprSites scopes _ arguments]
  | .member object _ _ => Expr.names_sites scopes next object
  | .index object index _ => by
      simp only [Expr.sites, Expr.numbered, List.map_append, namesOf_append,
        Expr.names_sites scopes _ object, Expr.names_sites scopes _ index]
  | .conditional test consequent alternate _ => by
      simp only [Expr.sites, Expr.numbered, List.map_append, namesOf_append,
        Expr.names_sites scopes _ test, Expr.names_sites scopes _ consequent,
        Expr.names_sites scopes _ alternate]
  | .template _ substitutions _ => names_exprSites scopes next substitutions
  | .sequence operands _ => names_exprSites scopes next operands
  | .spread argument _ => Expr.names_sites scopes next argument
  | .classDef _ superclass? members _ => by
      simp only [Expr.sites, Expr.numbered, List.map_append, namesOf_append, names_nameSites,
        names_exprSites? _ _ superclass?, names_memberSites _ _ members]

theorem names_exprSites (scopes : List OpenScope) (next : ScopeId) : ∀ exprs : List Expr,
    (exprSites scopes next exprs).map Site.name = namesOf (exprNumbered exprs)
  | [] => rfl
  | expr :: others => by
      simp only [exprSites, exprNumbered, List.map_append, namesOf_append,
        Expr.names_sites scopes _ expr, names_exprSites scopes _ others]

theorem names_exprSites? (scopes : List OpenScope) (next : ScopeId) : ∀ expr? : Option Expr,
    (exprSites? scopes next expr?).map Site.name = namesOf (exprNumbered? expr?)
  | none => rfl
  | some expr => Expr.names_sites scopes next expr

theorem names_propertySites (scopes : List OpenScope) (next : ScopeId) :
    ∀ properties : List Property,
      (propertySites scopes next properties).map Site.name = namesOf (propertyNumbered properties)
  | [] => rfl
  | ⟨_, value⟩ :: others => by
      simp only [propertySites, propertyNumbered, List.map_append, namesOf_append,
        Expr.names_sites scopes _ value, names_propertySites scopes _ others]

theorem names_elementSites (scopes : List OpenScope) (next : ScopeId) :
    ∀ elements : List PatternElement,
      (elementSites scopes next elements).map Site.name = namesOf (elementNumbered elements)
  | [] => rfl
  | ⟨_, default?, _⟩ :: others => by
      simp only [elementSites, elementNumbered, List.map_append, namesOf_append,
        names_exprSites? scopes _ default?, names_elementSites scopes _ others]

theorem Target.names_sites (scopes : List OpenScope) (next : ScopeId) : ∀ target : Target,
    (target.sites scopes next).map Site.name = namesOf target.numbered
  | .name _ => rfl
  | .pattern elements nestedDefaults => by
      simp only [Target.sites, Target.numbered, List.map_append, namesOf_append,
        names_elementSites scopes _ elements, names_exprSites scopes _ nestedDefaults]

theorem names_parameterSites (scopes : List OpenScope) (next : ScopeId) :
    ∀ parameters : List Parameter,
      (parameterSites scopes next parameters).map Site.name =
        namesOf (parameterNumbered parameters)
  | [] => rfl
  | ⟨target, default?, _, _⟩ :: others => by
      simp only [parameterSites, parameterNumbered, List.map_append, namesOf_append,
        names_exprSites? scopes _ default?, Target.names_sites scopes _ target,
        names_parameterSites scopes _ others]

theorem names_functionSites (scopes : List OpenScope) (next : ScopeId)
    (parameters : List Parameter) (defaults : List Site) : ∀ body : Block,
      (functionSites scopes next parameters defaults body).map Site.name =
        parameterNames parameters ++ defaults.map Site.name ++ namesOf body.numbered
  | ⟨_, body, _⟩ => by
      simp only [functionSites, Block.numbered, List.map_append, names_sitesOf,
        names_stmtSites .body _ _ body]
      rfl

theorem names_memberSites (scopes : List OpenScope) (next : ScopeId) : ∀ members : List Member,
    (memberSites scopes next members).map Site.name = namesOf (memberNumbered members)
  | [] => rfl
  | ⟨_, _, value?, _⟩ :: others => by
      simp only [memberSites, memberNumbered, List.map_append, namesOf_append,
        names_exprSites? scopes _ value?, names_memberSites scopes _ others]

theorem Block.names_sites (scopes : List OpenScope) (next : ScopeId) : ∀ block : Block,
    (block.sites scopes next).map Site.name = namesOf block.numbered
  | ⟨_, body, _⟩ => names_stmtSites .body _ _ body

theorem names_blockSites? (scopes : List OpenScope) (next : ScopeId) : ∀ block? : Option Block,
    (blockSites? scopes next block?).map Site.name = namesOf (blockNumbered? block?)
  | none => rfl
  | some block => Block.names_sites scopes next block

theorem names_declaratorSites (role : Role) (scopes : List OpenScope) (next : ScopeId) :
    ∀ declarators : List Declarator,
      (declaratorSites role scopes next declarators).map Site.name =
        namesOf (declaratorNumbered declarators)
  | [] => rfl
  | ⟨target, value?, _⟩ :: others => by
      simp only [declaratorSites, declaratorNumbered, List.map_append, namesOf_append,
        names_sitesOf, Target.named, namesOf_named, names_exprSites? scopes _ value?,
        Target.names_sites scopes _ target, names_declaratorSites role scopes _ others]

theorem names_handlerSites? (scopes : List OpenScope) (next : ScopeId) :
    ∀ handler? : Option CatchClause,
      (handlerSites? scopes next handler?).map Site.name = namesOf (handlerNumbered? handler?)
  | none => rfl
  | some ⟨none, body, _⟩ => Block.names_sites _ _ body
  | some ⟨some target, body, _⟩ => by
      simp only [handlerSites?, handlerNumbered?, List.map_append, namesOf_append, names_sitesOf,
        Target.named, namesOf_named, Target.names_sites _ _ target, Block.names_sites _ _ body]

theorem names_clauseSites (scopes : List OpenScope) (next : ScopeId) :
    ∀ clauses : List SwitchClause,
      (clauseSites scopes next clauses).map Site.name = namesOf (clauseNumbered clauses)
  | [] => rfl
  | ⟨test?, body, _⟩ :: others => by
      simp only [clauseSites, clauseNumbered, List.map_append, namesOf_append,
        names_exprSites? scopes _ test?, names_stmtSites .body scopes _ body,
        names_clauseSites scopes _ others]

theorem Stmt.names_sites (standing : Standing) (scopes : List OpenScope) (next : ScopeId) :
    ∀ stmt : Stmt, (stmt.sites standing scopes next).map Site.name = namesOf stmt.numbered
  | .expression value _ => Expr.names_sites scopes next value
  | .block block => Block.names_sites scopes next block
  | .varDeclaration _ declarators _ => names_declaratorSites _ scopes next declarators
  | .conditional condition consequent alternate? _ => by
      simp only [Stmt.sites, Stmt.numbered, List.map_append, namesOf_append,
        Expr.names_sites scopes _ condition, Stmt.names_sites _ scopes _ consequent,
        names_stmtSites? _ scopes _ alternate?]
  | .whileLoop condition body _ => by
      simp only [Stmt.sites, Stmt.numbered, List.map_append, namesOf_append,
        Expr.names_sites scopes _ condition, Stmt.names_sites _ scopes _ body]
  | .doWhile body condition _ => by
      simp only [Stmt.sites, Stmt.numbered, List.map_append, namesOf_append,
        Expr.names_sites scopes _ condition, Stmt.names_sites _ scopes _ body]
  | .forLoop init? condition? update? body _ _ => by
      simp only [Stmt.sites, Stmt.numbered, List.map_append, namesOf_append, namesOf_construct,
        names_stmtSites? _ _ _ init?, names_exprSites? _ _ condition?,
        names_exprSites? _ _ update?, Stmt.names_sites _ _ _ body]
  | .forEach _ target _ subject body _ _ => by
      simp only [Stmt.sites, Stmt.numbered, List.map_append, namesOf_append, namesOf_construct,
        names_sitesOf, Target.named, namesOf_named, Expr.names_sites _ _ subject,
        Target.names_sites _ _ target, Stmt.names_sites _ _ _ body, List.append_assoc]
  | .function _ parameters body _ => by
      simp only [Stmt.sites, Stmt.numbered, List.map_cons, namesOf_name, namesOf_append,
        names_functionSites _ _ _ _ body, names_parameterSites _ _ parameters,
        namesOf_parameters, List.append_assoc]
  | .result value? _ => names_exprSites? scopes next value?
  | .imports bindings _ _ => by
      rw [Stmt.sites, names_sitesOf, Stmt.numbered, ← namesOf_named (bindings.map _), List.map_map]
      rfl
  | .exports declaration _ => Stmt.names_sites _ scopes next declaration
  | .leave _ | .skip _ | .empty _ => rfl
  | .guarded block handler? finalizer? _ => by
      simp only [Stmt.sites, Stmt.numbered, List.map_append, namesOf_append,
        Block.names_sites scopes _ block, names_handlerSites? scopes _ handler?,
        names_blockSites? scopes _ finalizer?]
  | .raise value _ => Expr.names_sites scopes next value
  | .switch subject clauses _ => by
      simp only [Stmt.sites, Stmt.numbered, List.map_append, namesOf_append,
        Expr.names_sites scopes _ subject, names_clauseSites _ _ clauses]
  | .labeled _ body _ => Stmt.names_sites _ scopes next body
  | .classDef _ superclass? members _ => by
      simp only [Stmt.sites, Stmt.numbered, List.map_cons, List.map_append, namesOf_name,
        namesOf_append, names_exprSites? scopes _ superclass?,
        names_memberSites scopes _ members]

theorem names_stmtSites? (standing : Standing) (scopes : List OpenScope) (next : ScopeId) :
    ∀ stmt? : Option Stmt,
      (stmtSites? standing scopes next stmt?).map Site.name = namesOf (stmtNumbered? stmt?)
  | none => rfl
  | some stmt => Stmt.names_sites standing scopes next stmt

theorem names_stmtSites (standing : Standing) (scopes : List OpenScope) (next : ScopeId) :
    ∀ stmts : List Stmt,
      (stmtSites standing scopes next stmts).map Site.name = namesOf (stmtNumbered stmts)
  | [] => rfl
  | stmt :: others => by
      simp only [stmtSites, stmtNumbered, List.map_append, namesOf_append,
        Stmt.names_sites standing scopes _ stmt, names_stmtSites standing scopes _ others]

end

theorem names_scriptSites (root : Block) :
    (scriptSites root).map Site.name = namesOf root.numbered := by
  rw [scriptSites, names_stmtSites, Block.numbered_eq, namesOf_construct]

end ScriptKinds
