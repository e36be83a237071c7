import ScriptKinds.Proofs.Scope.Site

namespace ScriptKinds

/-- Every one of some declarations is an occurrence that belongs to a scope. -/
def Covers (sites : List Site) (home? : Option ScopeId) (declarations : List Declaration) : Prop :=
  ∀ declaration ∈ declarations, declaration.kind ≠ .implicit ∧
    ∃ site ∈ sites, site.name = declaration.name ∧ site.home? = home?

namespace Covers

variable {sites others : List Site} {home? : Option ScopeId}
variable {declarations otherDeclarations : List Declaration}

theorem nil : Covers sites home? [] := by
  intro declaration hmem
  cases hmem

theorem mono (h : Covers sites home? declarations) (hsites : sites ⊆ others) :
    Covers others home? declarations := by
  intro declaration hmem
  obtain ⟨hkind, site, hsite, hname, hhome⟩ := h declaration hmem
  exact ⟨hkind, site, hsites hsite, hname, hhome⟩

theorem left (h : Covers sites home? declarations) : Covers (sites ++ others) home? declarations :=
  h.mono (List.subset_append_left _ _)

theorem right (h : Covers others home? declarations) :
    Covers (sites ++ others) home? declarations :=
  h.mono (List.subset_append_right _ _)

theorem union (h : Covers sites home? declarations) (h' : Covers sites home? otherDeclarations) :
    Covers sites home? (declarations ++ otherDeclarations) := by
  intro declaration hmem
  rcases List.mem_append.mp hmem with hfirst | hsecond
  · exact h declaration hfirst
  · exact h' declaration hsecond

theorem append (h : Covers sites home? declarations) (h' : Covers others home? otherDeclarations) :
    Covers (sites ++ others) home? (declarations ++ otherDeclarations) :=
  h.left.union h'.right

theorem target {role : Role} {scopes : List OpenScope} {kind : SymbolKind}
    (hkind : kind ≠ .implicit) (hhome : ∀ name, Site.home? ⟨name, role, scopes⟩ = home?)
    (target : Target) (position : Nat) :
    Covers (sitesOf role scopes target.names) home? (target.declarations kind position) := by
  intro declaration hmem
  obtain ⟨name, hname, rfl⟩ := List.mem_map.mp hmem
  exact ⟨hkind, _, List.mem_map_of_mem hname, rfl, hhome name⟩

end Covers

theorem covers_declarators {role : Role} {scopes : List OpenScope} {home? : Option ScopeId}
    (hhome : ∀ name, Site.home? ⟨name, role, scopes⟩ = home?) (next : ScopeId)
    (declarators : List Declarator) :
    Covers (declaratorSites role scopes next declarators) home?
      (declarators.flatMap Declarator.declarations) := by
  induction declarators generalizing next with
  | nil => exact .nil
  | cons declarator others ih =>
      obtain ⟨target, value?, span⟩ := declarator
      rw [declaratorSites, List.flatMap_cons]
      refine Covers.append ?_ (ih _)
      exact (Covers.target (by decide) hhome target span.start).left.left

section Hoisting

theorem covers_imports (scopes : List OpenScope) (bindings : List ImportBinding) :
    Covers (sitesOf .hoisted scopes (bindings.map ImportBinding.name)) (boundaryOf? scopes)
      (bindings.map ImportBinding.declaration) := by
  intro declaration hmem
  obtain ⟨binding, hbinding, rfl⟩ := List.mem_map.mp hmem
  have hkind : SymbolKind.imported ≠ .implicit := by decide
  refine ⟨hkind, ⟨binding.name, .hoisted, scopes⟩, ?_, rfl, rfl⟩
  exact List.mem_map_of_mem (List.mem_map_of_mem hbinding)

mutual

/-- What a statement hoists are occurrences in it that belong to the function
around it. -/
theorem Stmt.covers_hoisted (standing : Standing) (scopes : List OpenScope) (next : ScopeId) :
    ∀ stmt : Stmt, Covers (stmt.sites standing scopes next) (boundaryOf? scopes) stmt.hoisted
  | .varDeclaration .var declarators _ => covers_declarators (fun _ => rfl) next declarators
  | .varDeclaration .let_ _ _ | .varDeclaration .const _ _ => .nil
  | .function name _ _ _ => by
      intro declaration hmem
      obtain rfl := List.mem_singleton.mp hmem
      have hkind : SymbolKind.function ≠ .implicit := by decide
      exact ⟨hkind, ⟨name, .hoisted, scopes⟩, List.mem_cons_self, rfl, rfl⟩
  | .imports bindings _ _ => covers_imports scopes bindings
  | .block ⟨_, body, _⟩ => covers_hoistedAll .body (⟨next, .block, none⟩ :: scopes) (next + 1) body
  | .conditional _ consequent alternate? _ =>
      (Covers.right (Stmt.covers_hoisted .nested scopes _ consequent)).append
        (covers_hoisted? .nested scopes _ alternate?)
  | .whileLoop _ body _ => Covers.right (Stmt.covers_hoisted .nested scopes _ body)
  | .doWhile body _ _ => Covers.left (Stmt.covers_hoisted .nested scopes _ body)
  | .labeled _ body _ => Stmt.covers_hoisted .nested scopes next body
  | .forLoop init? _ _ body _ _ =>
      (Covers.left (Covers.left
        (covers_hoisted? .body (⟨next, .block, none⟩ :: scopes) (next + 1) init?))).append
        (Stmt.covers_hoisted .nested (⟨next, .block, none⟩ :: scopes) _ body)
  | .forEach (some .var) target _ subject body _ span =>
      Covers.right (Covers.append
        (Covers.left (Covers.target (by decide) (fun _ => rfl) target span.start))
        (Stmt.covers_hoisted .nested (⟨next + opened subject.actions, .block, none⟩ :: scopes) _
          body))
  | .forEach none _ _ subject body _ _ | .forEach (some .let_) _ _ subject body _ _
  | .forEach (some .const) _ _ subject body _ _ =>
      Covers.right (Covers.right
        (Stmt.covers_hoisted .nested (⟨next + opened subject.actions, .block, none⟩ :: scopes) _
          body))
  | .exports declaration _ => Stmt.covers_hoisted _ scopes next declaration
  | .guarded ⟨_, body, _⟩ handler? finalizer? _ =>
      Covers.append
        (Covers.append (covers_hoistedAll .body (⟨next, .block, none⟩ :: scopes) (next + 1) body)
          (covers_hoistedHandler? scopes _ handler?))
        (covers_hoistedBlock? scopes _ finalizer?)
  | .switch _ clauses _ =>
      Covers.right (covers_hoistedClauses (⟨_, .block, none⟩ :: scopes) _ clauses)
  | .expression _ _ | .result _ _ | .leave _ | .skip _ | .empty _ | .raise _ _
  | .classDef _ _ _ _ => .nil

theorem covers_hoisted? (standing : Standing) (scopes : List OpenScope) (next : ScopeId) :
    ∀ stmt? : Option Stmt,
      Covers (stmtSites? standing scopes next stmt?) (boundaryOf? scopes) (hoisted? stmt?)
  | none => .nil
  | some stmt => Stmt.covers_hoisted standing scopes next stmt

theorem covers_hoistedAll (standing : Standing) (scopes : List OpenScope) (next : ScopeId) :
    ∀ stmts : List Stmt,
      Covers (stmtSites standing scopes next stmts) (boundaryOf? scopes) (hoistedAll stmts)
  | [] => .nil
  | stmt :: others =>
      (Stmt.covers_hoisted standing scopes next stmt).append
        (covers_hoistedAll standing scopes _ others)

theorem covers_hoistedBlock? (scopes : List OpenScope) (next : ScopeId) : ∀ block? : Option Block,
    Covers (blockSites? scopes next block?) (boundaryOf? scopes) (hoistedBlock? block?)
  | none => .nil
  | some ⟨_, body, _⟩ => covers_hoistedAll .body (⟨next, .block, none⟩ :: scopes) (next + 1) body

theorem covers_hoistedHandler? (scopes : List OpenScope) (next : ScopeId) :
    ∀ handler? : Option CatchClause,
      Covers (handlerSites? scopes next handler?) (boundaryOf? scopes) (hoistedHandler? handler?)
  | none => .nil
  | some ⟨none, ⟨_, body, _⟩, _⟩ =>
      covers_hoistedAll .body (⟨next + 1, .block, none⟩ :: ⟨next, .block, none⟩ :: scopes) _ body
  | some ⟨some _, ⟨_, body, _⟩, _⟩ =>
      Covers.right
        (covers_hoistedAll .body (⟨_, .block, none⟩ :: ⟨next, .block, none⟩ :: scopes) _ body)

theorem covers_hoistedClauses (scopes : List OpenScope) (next : ScopeId) :
    ∀ clauses : List SwitchClause,
      Covers (clauseSites scopes next clauses) (boundaryOf? scopes) (hoistedClauses clauses)
  | [] => .nil
  | ⟨_, body, _⟩ :: others =>
      (Covers.right (covers_hoistedAll .body scopes _ body)).append
        (covers_hoistedClauses scopes _ others)

end

end Hoisting

section Lexical

/-- The declarations of a statement that belong to the block around it, unless
it is an export. -/
def Stmt.ownLexical : Stmt → List Declaration
  | .classDef name _ _ span => [⟨name, .classDef, span.start⟩]
  | .varDeclaration .var _ _ => []
  | .varDeclaration _ declarators _ => declarators.flatMap Declarator.declarations
  | _ => []

/-- The declarations of a statement that are carried out when the block around
it is entered. -/
def Stmt.lexicalAt (stmt : Stmt) : Standing → List Declaration
  | .body => stmt.lexical
  | .exported => stmt.ownLexical
  | .nested => []

theorem Stmt.covers_ownLexical (standing : Standing) (scopes : List OpenScope) (next : ScopeId)
    (stmt : Stmt) :
    Covers (stmt.sites standing scopes next) (innermostOf? scopes) stmt.ownLexical := by
  cases stmt with
  | classDef name superclass? members span =>
      intro declaration hmem
      obtain rfl := List.mem_singleton.mp hmem
      have hkind : SymbolKind.classDef ≠ .implicit := by decide
      exact ⟨hkind, _, List.mem_cons_self, rfl, rfl⟩
  | varDeclaration kind declarators span =>
      cases kind with
      | var => exact .nil
      | let_ => exact covers_declarators (fun _ => rfl) next declarators
      | const => exact covers_declarators (fun _ => rfl) next declarators
  | _ => exact .nil

/-- The lexical declarations of a statement are occurrences in it that belong to
the block around it. -/
theorem Stmt.covers_lexical (scopes : List OpenScope) (next : ScopeId) (stmt : Stmt) :
    Covers (stmt.sites .body scopes next) (innermostOf? scopes) stmt.lexical := by
  cases stmt with
  | exports declaration span => exact declaration.covers_ownLexical .exported scopes next
  | _ => exact Stmt.covers_ownLexical .body scopes next _

theorem covers_lexical? (scopes : List OpenScope) (next : ScopeId) (stmt? : Option Stmt) :
    Covers (stmtSites? .body scopes next stmt?) (innermostOf? scopes)
      (stmt?.toList.flatMap Stmt.lexical) := by
  cases stmt? with
  | none => exact .nil
  | some stmt =>
      rw [Option.toList_some, List.flatMap_singleton]
      exact stmt.covers_lexical scopes next

theorem covers_lexicals (scopes : List OpenScope) (next : ScopeId) (stmts : List Stmt) :
    Covers (stmtSites .body scopes next stmts) (innermostOf? scopes)
      (stmts.flatMap Stmt.lexical) := by
  induction stmts generalizing next with
  | nil => exact .nil
  | cons stmt others ih =>
      rw [stmtSites, List.flatMap_cons]
      exact (stmt.covers_lexical scopes next).append (ih _)

theorem covers_clauseLexicals (scopes : List OpenScope) (next : ScopeId)
    (clauses : List SwitchClause) :
    Covers (clauseSites scopes next clauses) (innermostOf? scopes)
      ((clauses.flatMap SwitchClause.body).flatMap Stmt.lexical) := by
  induction clauses generalizing next with
  | nil => exact .nil
  | cons clause others ih =>
      obtain ⟨test?, body, span⟩ := clause
      rw [clauseSites, List.flatMap_cons, List.flatMap_append]
      exact (Covers.right (covers_lexicals scopes _ body)).append (ih _)

end Lexical

end ScriptKinds
