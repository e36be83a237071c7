import ScriptKinds.Proofs.Scope.Walk

namespace ScriptKinds

variable {known : List Declaration} {scopes : List OpenScope} {next : ScopeId}
variable {actions : List Action} {sites : List Site}

section Scopes

theorem declarations_names (target : Target) (kind : SymbolKind) (position : Nat) :
    (target.declarations kind position).map Declaration.name = target.names := by
  rw [Target.declarations, List.map_map]
  exact List.map_id target.names

theorem parameterDeclarations_names (parameters : List Parameter) :
    (parameterDeclarations parameters).map Declaration.name = parameterNames parameters := by
  induction parameters with
  | nil => rfl
  | cons parameter others ih =>
      rw [parameterDeclarations, List.flatMap_cons, List.map_append, declarations_names]
      exact congrArg (parameter.target.names ++ ·) ih

theorem covers_parameters (id : ScopeId) (parameters : List Parameter) :
    Covers (sitesOf (.bound true) (parameterScope id parameters :: scopes)
      (parameterNames parameters)) (some id) (parameterDeclarations parameters) := by
  intro declaration hmem
  have hname : declaration.name ∈ parameterNames parameters := by
    rw [← parameterDeclarations_names]
    exact List.mem_map_of_mem hmem
  obtain ⟨parameter, _, htarget⟩ := List.mem_flatMap.mp hmem
  obtain ⟨name, _, rfl⟩ := List.mem_map.mp htarget
  have hkind : SymbolKind.parameter ≠ .implicit := by decide
  exact ⟨hkind, _, List.mem_map_of_mem hname, rfl, rfl⟩

theorem enterBody_eq (stmts : List Stmt) :
    enterBody stmts = declareAll (hoistedAll stmts ++ stmts.flatMap Stmt.lexical) :=
  List.map_append.symm

namespace Walk

theorem body (hopen : scopes ≠ []) {stmts : List Stmt} (hhoisted : hoistedAll stmts ⊆ known)
    (hwalk : ∀ known, hoistedAll stmts ⊆ known → stmts.flatMap Stmt.lexical ⊆ known →
      Walk known (⟨next, .block, none⟩ :: scopes) (next + 1) (stmtActions stmts)
        (stmtSites .body (⟨next, .block, none⟩ :: scopes) (next + 1) stmts)) :
    Walk known scopes next (within .block (enterBlock stmts ++ stmtActions stmts))
      (stmtSites .body (⟨next, .block, none⟩ :: scopes) (next + 1) stmts) := by
  apply innerBlock hopen
  · exact covers_lexicals (⟨next, .block, none⟩ :: scopes) (next + 1) stmts
  · apply hwalk
    · exact List.subset_append_of_subset_right _ hhoisted
    · exact List.subset_append_left _ _

theorem functionBody (hopen : scopes ≠ []) {parameters : List Parameter} {body : List Stmt}
    (hdefaults : ∀ known, Walk known (parameterScope next parameters :: scopes) (next + 1)
      (parameterActions parameters)
      (parameterSites (parameterScope next parameters :: scopes) (next + 1) parameters))
    (hbody : ∀ known next', hoistedAll body ⊆ known → body.flatMap Stmt.lexical ⊆ known →
      Walk known (⟨next, .function, none⟩ :: scopes) next' (stmtActions body)
        (stmtSites .body (⟨next, .function, none⟩ :: scopes) next' body)) (id : NodeId)
    (span : Span) :
    Walk known scopes next
      (functionActions (declareParameters parameters ++ parameterActions parameters)
        ⟨id, body, span⟩)
      (functionSites scopes next parameters
        (parameterSites (parameterScope next parameters :: scopes) (next + 1) parameters)
        ⟨id, body, span⟩) := by
  have hnames : Walk (parameterDeclarations parameters ++ known)
      (parameterScope next parameters :: scopes) (next + 1) []
      (sitesOf (.bound true) (parameterScope next parameters :: scopes)
        (parameterNames parameters)) := by
    rw [← parameterDeclarations_names]
    exact declaredAll (List.cons_ne_nil _ _) (List.subset_append_left _ _) (.inr rfl)
  have hcovers := (covers_hoistedAll .body (⟨next, .function, none⟩ :: scopes)
    (next + 1 + opened (parameterActions parameters)) body).union
      (covers_lexicals (⟨next, .function, none⟩ :: scopes) _ body)
  have hactions : functionActions (declareParameters parameters ++ parameterActions parameters)
        ⟨id, body, span⟩ =
      within .function (declareAll (parameterDeclarations parameters) ++
        parameterActions parameters ++
        declareAll (hoistedAll body ++ body.flatMap Stmt.lexical) ++ stmtActions body) := by
    rw [← enterBody_eq]
    rfl
  rw [hactions]
  apply function hopen (covers_parameters next parameters).left hcovers
  · exact hnames.append (hdefaults _)
  · apply hbody
    · exact List.subset_append_of_subset_left _ (List.subset_append_left _ _)
    · exact List.subset_append_of_subset_left _ (List.subset_append_right _ _)

theorem named {name? : Option Identifier} {kind : SymbolKind} {position : Nat}
    (hopen : scopes ≠ []) (hkind : kind ≠ .implicit)
    (hinside : ∀ known, Walk known (nameScopes name? scopes next) (nameNext name? next) actions
      sites) :
    Walk known scopes next (withinName name? kind position actions)
      (nameSites name? scopes next ++ sites) := by
  cases name? with
  | none => exact hinside known
  | some name =>
      have hname : (⟨name, kind, position⟩ : Declaration) ∈ [⟨name, kind, position⟩] ++ known :=
        List.mem_cons_self
      have hcovers : Covers
          ([⟨name, .bound true, ⟨next, .block, none⟩ :: scopes⟩] ++ sites) (some next)
          [⟨name, kind, position⟩] := by
        intro declaration hmem
        obtain rfl := List.mem_singleton.mp hmem
        exact ⟨hkind, _, List.mem_cons_self, rfl, rfl⟩
      exact innerBlock hopen hcovers
        ((declared (List.cons_ne_nil _ _) hname (.inr rfl)).append (hinside _))

theorem update (hopen : scopes ≠ []) {operator : Token} {operand : Expr} {leading : Bool}
    {span : Span} (h : Walk known scopes next operand.actions (operand.sites scopes next)) :
    Walk known scopes next (Expr.update operator operand leading span).actions
      ((Expr.update operator operand leading span).sites scopes next) := by
  cases operand with
  | symbol name span => exact write hopen
  | _ => exact h

theorem assignment (hopen : scopes ≠ []) {operator : Token} {target value : Expr} {span : Span}
    (htarget : Walk known scopes next target.actions (target.sites scopes next))
    (hvalue : ∀ next, Walk known scopes next value.actions (value.sites scopes next)) :
    Walk known scopes next (Expr.assignment operator target value span).actions
      ((Expr.assignment operator target value span).sites scopes next) := by
  cases target with
  | symbol name span => exact (write hopen).prepend rfl (hvalue next)
  | _ => exact htarget.append (hvalue _)

theorem scopedTarget {kind : SymbolKind} (hopen : scopes ≠ []) (hkind : kind ≠ .implicit)
    (target : Target) (position : Nat)
    (hinside : ∀ known', known ⊆ known' →
      Walk known' (⟨next, .block, none⟩ :: scopes) (next + 1) actions sites) :
    Walk known scopes next
      (within .block (declareAll (target.declarations kind position) ++ actions))
      (sitesOf (.bound true) (⟨next, .block, none⟩ :: scopes) target.names ++ sites) := by
  have hnames : Walk (target.declarations kind position ++ known)
      (⟨next, .block, none⟩ :: scopes) (next + 1) []
      (sitesOf (.bound true) (⟨next, .block, none⟩ :: scopes) target.names) := by
    rw [← declarations_names target kind position]
    exact declaredAll (List.cons_ne_nil _ _) (List.subset_append_left _ _) (.inr rfl)
  apply innerBlock hopen
  · exact (Covers.target hkind (fun _ => rfl) target position).left
  · exact hnames.append (hinside _ (List.subset_append_right _ _))

/-- The names of the entries of a variable declaration.  They are known to be
declared unless the declaration is misplaced. -/
theorem declaratorNames (hopen : scopes ≠ []) {kind : DeclarationKind} {standing : Standing}
    {declarators : List Declarator} {span : Span}
    (hhoisted : (Stmt.varDeclaration kind declarators span).hoisted ⊆ known)
    (hlexical : (Stmt.varDeclaration kind declarators span).lexicalAt standing ⊆ known) :
    ∀ declarator ∈ declarators, ∀ next, Walk known scopes next
      (ensureAll kind.place declarator.declarations)
      (sitesOf (kind.role standing) scopes declarator.target.names) := by
  intro declarator hmem next
  have hall : declarator.declarations ⊆ declarators.flatMap Declarator.declarations :=
    fun declaration h => List.mem_flatMap.mpr ⟨declarator, hmem, h⟩
  rw [← declarations_names declarator.target .variable declarator.span.start]
  cases kind with
  | var => exact ensuredAll hopen (List.Subset.trans hall hhoisted) (.inl rfl)
  | let_ | const =>
      cases standing with
      | body | exported => exact ensuredAll hopen (List.Subset.trans hall hlexical) (.inr rfl)
      | nested =>
          apply misplacedAll hopen
          intro declaration hdeclaration
          obtain ⟨name, _, rfl⟩ := List.mem_map.mp hdeclaration
          rfl

theorem className (hopen : scopes ≠ []) {name : Identifier} {superclass? : Option Expr}
    {members : List Member} {standing : Standing} {span : Span}
    (hlexical : (Stmt.classDef name superclass? members span).lexicalAt standing ⊆ known) :
    Walk known scopes next [.ensure .innermost ⟨name, .classDef, span.start⟩]
      [⟨name, .bound (standing != .nested), scopes⟩] := by
  cases standing with
  | body | exported => exact ensuredSite hopen (hlexical List.mem_cons_self) (.inr rfl)
  | nested =>
      have himplicit : SymbolKind.classDef ≠ .implicit := by decide
      have himported : SymbolKind.classDef ≠ .imported := by decide
      exact misplaced hopen himplicit himported

theorem loop (hopen : scopes ≠ []) {kind? : Option DeclarationKind} {target : Target}
    {position : Nat}
    (hhoisted : kind? = some .var → target.declarations .variable position ⊆ known)
    (hinside : ∀ known', known ⊆ known' →
      Walk known' (⟨next, .block, none⟩ :: scopes) (next + 1) actions sites) :
    Walk known scopes next (within .block (loopVariableActions kind? target position ++ actions))
      (sitesOf (loopRole kind?) (⟨next, .block, none⟩ :: scopes) target.names ++ sites) := by
  have hsame := hinside known (List.Subset.refl known)
  cases kind? with
  | none =>
      exact innerBlock hopen .nil
        ((writes (List.cons_ne_nil _ _) target.names position).prepend (opened_writes _ _) hsame)
  | some kind =>
      cases kind with
      | var =>
          apply innerBlock hopen .nil
          rw [← declarations_names target .variable position]
          apply (ensuredAll (List.cons_ne_nil _ _) (hhoisted rfl) (.inl rfl)).prepend _ hsame
          exact opened_ensureAll _ _
      | let_ | const => exact scopedTarget hopen (by decide) target position hinside

end Walk

theorem forEach_hoisted {kind? : Option DeclarationKind} {target : Target} {overValues : Bool}
    {subject : Expr} {body : Stmt} {id : NodeId} {span : Span}
    (h : (Stmt.forEach kind? target overValues subject body id span).hoisted ⊆ known) :
    (kind? = some .var → target.declarations .variable span.start ⊆ known) ∧
      body.hoisted ⊆ known := by
  rcases kind? with _ | (_ | _ | _)
  · exact ⟨nofun, h⟩
  · obtain ⟨htarget, hbody⟩ := List.append_subset.mp h
    exact ⟨fun _ => htarget, hbody⟩
  · exact ⟨nofun, h⟩
  · exact ⟨nofun, h⟩

end Scopes

section Trees

theorem nameScopes_ne_nil {name? : Option Identifier} (hopen : scopes ≠ []) :
    nameScopes name? scopes next ≠ [] := by
  cases name? with
  | none => exact hopen
  | some name => exact List.cons_ne_nil _ _

mutual

theorem Expr.walk (known : List Declaration) {scopes : List OpenScope} (hopen : scopes ≠ [])
    (next : ScopeId) : ∀ expr : Expr, Walk known scopes next expr.actions (expr.sites scopes next)
  | .number _ _ | .string _ _ _ | .boolean _ _ | .null _ | .regex _ _ _ => .nil
  | .symbol _ _ => .read hopen
  | .array elements _ => walk_exprs known hopen next elements
  | .object properties _ => walk_properties known hopen next properties
  | .function _ parameters ⟨id, body, span⟩ _ _ =>
      .named hopen (by decide) fun _ =>
        .functionBody (nameScopes_ne_nil hopen)
          (fun known => walk_parameters known (List.cons_ne_nil _ _) _ parameters)
          (fun known next => walk_stmts known .body (List.cons_ne_nil _ _) next body) id span
  | .binary _ left right _ =>
      (Expr.walk known hopen next left).append (Expr.walk known hopen _ right)
  | .unary _ operand _ => Expr.walk known hopen next operand
  | .update _ operand _ _ => .update hopen (Expr.walk known hopen next operand)
  | .assignment _ target value _ =>
      .assignment hopen (Expr.walk known hopen next target)
        fun next => Expr.walk known hopen next value
  | .call callee arguments _ | .new callee arguments _ =>
      (Expr.walk known hopen next callee).append (walk_exprs known hopen _ arguments)
  | .member object _ _ => Expr.walk known hopen next object
  | .index object index _ =>
      (Expr.walk known hopen next object).append (Expr.walk known hopen _ index)
  | .conditional test consequent alternate _ =>
      ((Expr.walk known hopen next test).append (Expr.walk known hopen _ consequent)).append
        (Expr.walk known hopen _ alternate)
  | .template _ substitutions _ => walk_exprs known hopen next substitutions
  | .sequence operands _ => walk_exprs known hopen next operands
  | .spread argument _ => Expr.walk known hopen next argument
  | .classDef _ superclass? members _ => by
      rw [Expr.sites, List.append_assoc]
      exact .named hopen (by decide) fun known =>
        (walk_expr? known (nameScopes_ne_nil hopen) _ superclass?).append
          (walk_members known (nameScopes_ne_nil hopen) _ members)

theorem walk_exprs (known : List Declaration) {scopes : List OpenScope} (hopen : scopes ≠ [])
    (next : ScopeId) : ∀ exprs : List Expr,
      Walk known scopes next (exprActions exprs) (exprSites scopes next exprs)
  | [] => .nil
  | expr :: others => (Expr.walk known hopen next expr).append (walk_exprs known hopen _ others)

theorem walk_expr? (known : List Declaration) {scopes : List OpenScope} (hopen : scopes ≠ [])
    (next : ScopeId) : ∀ expr? : Option Expr,
      Walk known scopes next (exprActions? expr?) (exprSites? scopes next expr?)
  | none => .nil
  | some expr => Expr.walk known hopen next expr

theorem walk_properties (known : List Declaration) {scopes : List OpenScope} (hopen : scopes ≠ [])
    (next : ScopeId) : ∀ properties : List Property,
      Walk known scopes next (propertyActions properties) (propertySites scopes next properties)
  | [] => .nil
  | ⟨_, value⟩ :: others =>
      (Expr.walk known hopen next value).append (walk_properties known hopen _ others)

theorem walk_elements (known : List Declaration) {scopes : List OpenScope} (hopen : scopes ≠ [])
    (next : ScopeId) : ∀ elements : List PatternElement,
      Walk known scopes next (elementActions elements) (elementSites scopes next elements)
  | [] => .nil
  | ⟨_, default?, _⟩ :: others =>
      (walk_expr? known hopen next default?).append (walk_elements known hopen _ others)

theorem Target.walk (known : List Declaration) {scopes : List OpenScope} (hopen : scopes ≠ [])
    (next : ScopeId) : ∀ target : Target,
      Walk known scopes next target.actions (target.sites scopes next)
  | .name _ => .nil
  | .pattern elements nestedDefaults =>
      (walk_elements known hopen next elements).append (walk_exprs known hopen _ nestedDefaults)

theorem walk_parameters (known : List Declaration) {scopes : List OpenScope} (hopen : scopes ≠ [])
    (next : ScopeId) : ∀ parameters : List Parameter,
      Walk known scopes next (parameterActions parameters) (parameterSites scopes next parameters)
  | [] => .nil
  | ⟨target, default?, _, _⟩ :: others =>
      ((walk_expr? known hopen next default?).append (Target.walk known hopen _ target)).append
        (walk_parameters known hopen _ others)

theorem walk_members (known : List Declaration) {scopes : List OpenScope} (hopen : scopes ≠ [])
    (next : ScopeId) : ∀ members : List Member,
      Walk known scopes next (memberActions members) (memberSites scopes next members)
  | [] => .nil
  | ⟨_, _, value?, _⟩ :: others =>
      (walk_expr? known hopen next value?).append (walk_members known hopen _ others)

theorem Block.walk {known : List Declaration} {scopes : List OpenScope} (hopen : scopes ≠ [])
    (next : ScopeId) : ∀ block : Block, hoistedBlock? (some block) ⊆ known →
      Walk known scopes next block.actions (block.sites scopes next)
  | ⟨_, body, _⟩, hhoisted =>
      .body hopen hhoisted fun known => walk_stmts known .body (List.cons_ne_nil _ _) _ body

theorem walk_block? {known : List Declaration} {scopes : List OpenScope} (hopen : scopes ≠ [])
    (next : ScopeId) : ∀ block? : Option Block, hoistedBlock? block? ⊆ known →
      Walk known scopes next (blockActions? block?) (blockSites? scopes next block?)
  | none, _ => .nil
  | some block, hhoisted => Block.walk hopen next block hhoisted

theorem walk_declarators (known : List Declaration) {role : Role} {place : Place}
    {scopes : List OpenScope} (hopen : scopes ≠ []) (next : ScopeId) :
    ∀ declarators : List Declarator,
      (∀ declarator ∈ declarators, ∀ next, Walk known scopes next
        (ensureAll place declarator.declarations) (sitesOf role scopes declarator.target.names)) →
      Walk known scopes next (declaratorActions place declarators)
        (declaratorSites role scopes next declarators)
  | [], _ => .nil
  | ⟨target, value?, span⟩ :: others, hnames => by
      have hname := hnames ⟨target, value?, span⟩ List.mem_cons_self next
      have hparts := ((walk_expr? known hopen next value?).append
        (Target.walk known hopen _ target)).append
          (walk_declarators known hopen _ others fun declarator hmem =>
            hnames declarator (List.mem_cons_of_mem _ hmem))
      have hwhole := hname.prepend (opened_ensureAll _ _) hparts
      simpa only [declaratorActions, declaratorSites, Declarator.declarations, List.append_assoc]
        using hwhole

theorem walk_handler? {known : List Declaration} {scopes : List OpenScope} (hopen : scopes ≠ [])
    (next : ScopeId) : ∀ handler? : Option CatchClause, hoistedHandler? handler? ⊆ known →
      Walk known scopes next (handlerActions? handler?) (handlerSites? scopes next handler?)
  | none, _ => .nil
  | some ⟨none, ⟨id, body, span⟩, _⟩, hhoisted =>
      .innerBlock hopen .nil
        (Block.walk (List.cons_ne_nil _ _) _ ⟨id, body, span⟩ hhoisted)
  | some ⟨some target, ⟨id, body, span⟩, _⟩, hhoisted => by
      rw [handlerActions?, handlerSites?, List.append_assoc, List.append_assoc]
      exact .scopedTarget hopen (by decide) target _ fun known' hknown =>
        (Target.walk known' (List.cons_ne_nil _ _) _ target).append
          (Block.walk (List.cons_ne_nil _ _) _ ⟨id, body, span⟩ (List.Subset.trans hhoisted hknown))

theorem walk_clauses (known : List Declaration) {scopes : List OpenScope} (hopen : scopes ≠ [])
    (next : ScopeId) : ∀ clauses : List SwitchClause, hoistedClauses clauses ⊆ known →
      (clauses.flatMap SwitchClause.body).flatMap Stmt.lexical ⊆ known →
      Walk known scopes next (clauseActions clauses) (clauseSites scopes next clauses)
  | [], _, _ => .nil
  | ⟨test?, body, _⟩ :: others, hhoisted, hlexical => by
      obtain ⟨hhoistedBody, hhoistedOthers⟩ := List.append_subset.mp hhoisted
      rw [List.flatMap_cons, List.flatMap_append] at hlexical
      obtain ⟨hlexicalBody, hlexicalOthers⟩ := List.append_subset.mp hlexical
      exact ((walk_expr? known hopen next test?).append
        (walk_stmts known .body hopen _ body hhoistedBody hlexicalBody)).append
          (walk_clauses known hopen _ others hhoistedOthers hlexicalOthers)

theorem Stmt.walk (known : List Declaration) (standing : Standing) {scopes : List OpenScope}
    (hopen : scopes ≠ []) (next : ScopeId) : ∀ stmt : Stmt, stmt.hoisted ⊆ known →
      stmt.lexicalAt standing ⊆ known →
      Walk known scopes next stmt.actions (stmt.sites standing scopes next)
  | .expression value _, _, _ => Expr.walk known hopen next value
  | .block ⟨id, body, span⟩, hhoisted, _ => Block.walk hopen next ⟨id, body, span⟩ hhoisted
  | .varDeclaration _ declarators _, hhoisted, hlexical =>
      walk_declarators known hopen next declarators (.declaratorNames hopen hhoisted hlexical)
  | .conditional condition consequent alternate? _, hhoisted, _ =>
      ((Expr.walk known hopen next condition).append
        (Stmt.walk known .nested hopen _ consequent (List.append_subset.mp hhoisted).1
          (List.nil_subset _))).append
        (walk_stmt? known .nested hopen _ alternate? (List.append_subset.mp hhoisted).2
          (by cases alternate? <;> exact List.nil_subset _))
  | .whileLoop condition body _, hhoisted, _ =>
      (Expr.walk known hopen next condition).append
        (Stmt.walk known .nested hopen _ body hhoisted (List.nil_subset _))
  | .doWhile body condition _, hhoisted, _ =>
      (Stmt.walk known .nested hopen _ body hhoisted (List.nil_subset _)).append
        (Expr.walk known hopen _ condition)
  | .forLoop init? condition? update? body _ _, hhoisted, _ => by
      obtain ⟨hinit, hbody⟩ := List.append_subset.mp hhoisted
      have hinside := (((walk_stmt? (init?.toList.flatMap Stmt.lexical ++ known) .body
        (List.cons_ne_nil ⟨next, .block, none⟩ scopes) (next + 1) init?
        (List.subset_append_of_subset_right _ hinit) (List.subset_append_left _ _)).append
        (walk_expr? _ (List.cons_ne_nil _ _) _ condition?)).append
        (walk_expr? _ (List.cons_ne_nil _ _) _ update?)).append
        (Stmt.walk _ .nested (List.cons_ne_nil _ _) _ body
          (List.subset_append_of_subset_right _ hbody) (List.nil_subset _))
      have hwhole := Walk.innerBlock hopen
        (covers_lexical? (⟨next, .block, none⟩ :: scopes) (next + 1) init?).left.left.left hinside
      simpa only [Stmt.actions, Stmt.sites, enterBlock, List.append_assoc] using hwhole
  | .forEach kind? target _ subject body _ _, hhoisted, _ => by
      rw [Stmt.actions, Stmt.sites, List.append_assoc, List.append_assoc]
      exact (Expr.walk known hopen next subject).append
        (.loop hopen (fun hkind => (forEach_hoisted hhoisted).1 hkind) fun known' hknown =>
          (Target.walk known' (List.cons_ne_nil _ _) _ target).append
            (Stmt.walk known' .nested (List.cons_ne_nil _ _) _ body
              (List.Subset.trans (forEach_hoisted hhoisted).2 hknown) (List.nil_subset _)))
  | .function name parameters ⟨id, body, span⟩ _, hhoisted, _ =>
      (Walk.ensuredSite hopen (hhoisted List.mem_cons_self) (.inl rfl)).prepend rfl
        (.functionBody hopen
          (fun known => walk_parameters known (List.cons_ne_nil _ _) _ parameters)
          (fun known next => walk_stmts known .body (List.cons_ne_nil _ _) next body) id span)
  | .result value? _, _, _ => walk_expr? known hopen next value?
  | .imports bindings _ _, hhoisted, _ => by
      have hnames : (bindings.map ImportBinding.declaration).map Declaration.name =
          bindings.map ImportBinding.name := by
        rw [List.map_map]
        rfl
      rw [Stmt.actions, Stmt.sites, ← hnames]
      exact .ensuredAll hopen hhoisted (.inl rfl)
  | .exports declaration _, hhoisted, hlexical => by
      apply Stmt.walk known standing.ofExport hopen next declaration hhoisted
      cases standing with
      | body => exact hlexical
      | exported | nested => exact List.nil_subset _
  | .leave _, _, _ | .skip _, _, _ | .empty _, _, _ => .nil
  | .guarded ⟨id, body, span⟩ handler? finalizer? _, hhoisted, _ => by
      obtain ⟨hguarded, hfinalizer⟩ := List.append_subset.mp hhoisted
      obtain ⟨hbody, hhandler⟩ := List.append_subset.mp hguarded
      exact ((Block.walk hopen next ⟨id, body, span⟩ hbody).append
        (walk_handler? hopen _ handler? hhandler)).append
          (walk_block? hopen _ finalizer? hfinalizer)
  | .raise value _, _, _ => Expr.walk known hopen next value
  | .switch subject clauses _, hhoisted, _ =>
      (Expr.walk known hopen next subject).append
        (.innerBlock hopen (covers_clauseLexicals _ _ clauses)
          (walk_clauses _ (List.cons_ne_nil _ _) _ clauses
            (List.subset_append_of_subset_right _ hhoisted) (List.subset_append_left _ _)))
  | .labeled _ body _, hhoisted, _ =>
      Stmt.walk known .nested hopen next body hhoisted (List.nil_subset _)
  | .classDef name superclass? members span, _, hlexical =>
      (Walk.className hopen hlexical).prepend rfl
        ((walk_expr? known hopen next superclass?).append (walk_members known hopen _ members))

theorem walk_stmt? (known : List Declaration) (standing : Standing) {scopes : List OpenScope}
    (hopen : scopes ≠ []) (next : ScopeId) : ∀ stmt? : Option Stmt, hoisted? stmt? ⊆ known →
      stmt?.toList.flatMap (fun stmt => stmt.lexicalAt standing) ⊆ known →
      Walk known scopes next (stmtActions? stmt?) (stmtSites? standing scopes next stmt?)
  | none, _, _ => .nil
  | some stmt, hhoisted, hlexical =>
      Stmt.walk known standing hopen next stmt hhoisted (by simpa using hlexical)

theorem walk_stmts (known : List Declaration) (standing : Standing) {scopes : List OpenScope}
    (hopen : scopes ≠ []) (next : ScopeId) : ∀ stmts : List Stmt, hoistedAll stmts ⊆ known →
      stmts.flatMap (fun stmt => stmt.lexicalAt standing) ⊆ known →
      Walk known scopes next (stmtActions stmts) (stmtSites standing scopes next stmts)
  | [], _, _ => .nil
  | stmt :: others, hhoisted, hlexical => by
      obtain ⟨hhoistedFirst, hhoistedOthers⟩ := List.append_subset.mp hhoisted
      obtain ⟨hlexicalFirst, hlexicalOthers⟩ := List.append_subset.mp hlexical
      exact (Stmt.walk known standing hopen next stmt hhoistedFirst hlexicalFirst).append
        (walk_stmts known standing hopen _ others hhoistedOthers hlexicalOthers)

end

theorem walk_script (root : Block) : Walk [] [] 0 (scriptActions root) (scriptSites root) := by
  rw [scriptActions, enterBody_eq]
  apply Walk.block (fun _ => ⟨rfl, rfl⟩) (fun h => absurd rfl h)
  · exact (covers_hoistedAll .body [⟨0, .script, none⟩] 1 root.body).union
      (covers_lexicals [⟨0, .script, none⟩] 1 root.body)
  · apply walk_stmts _ .body (List.cons_ne_nil _ _)
    · exact List.subset_append_of_subset_left _ (List.subset_append_left _ _)
    · exact List.subset_append_of_subset_left _ (List.subset_append_right _ _)

end Trees

end ScriptKinds
