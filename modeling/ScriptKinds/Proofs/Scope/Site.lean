import ScriptKinds.Proofs.Tree.Numbered
import ScriptKinds.Scope.Action

namespace ScriptKinds

/-- A scope that is open at some place of a script. -/
structure OpenScope where
  id : ScopeId
  kind : ScopeKind
  /-- The names that count, unless all names of the scope do.  In the parameters
  of a function only their own names count. -/
  only? : Option (List String)
deriving DecidableEq, Repr

/-- What an occurrence does with its name. -/
inductive Role where
  | read
  /-- The target of an assignment, an update or a loop without a declaration. -/
  | write
  /-- A declaration with `var`, of a function or of an import. -/
  | hoisted
  /-- Any other declaration.  Only a `let`, `const` or `class` statement can fail
  to stand directly in a body. -/
  | bound (direct : Bool)
deriving DecidableEq, Repr

/-- Whether an occurrence declares its name. -/
def Role.declares : Role → Bool
  | .read | .write => false
  | .hoisted | .bound _ => true

structure Site where
  name : Identifier
  role : Role
  /-- The scopes around it, innermost first. -/
  scopes : List OpenScope
deriving DecidableEq, Repr

/-- The innermost of some open scopes that is not the scope of a block. -/
def boundaryOf? (scopes : List OpenScope) : Option ScopeId :=
  (scopes.find? (·.kind != .block)).map OpenScope.id

/-- The innermost of some open scopes. -/
def innermostOf? (scopes : List OpenScope) : Option ScopeId :=
  scopes.head?.map OpenScope.id

/-- The scope to which an occurrence adds its name, if it is a declaration. -/
def Site.home? (site : Site) : Option ScopeId :=
  match site.role with
  | .read | .write => none
  | .hoisted => boundaryOf? site.scopes
  | .bound _ => innermostOf? site.scopes

/-- Occurrences of names in one role, inside the same scopes. -/
def sitesOf (role : Role) (scopes : List OpenScope) (names : List Identifier) : List Site :=
  names.map fun name => ⟨name, role, scopes⟩

/-- Where a statement stands. -/
inductive Standing where
  /-- Directly in a body or in the head of a loop. -/
  | body
  /-- Under an export that stands directly in a body. -/
  | exported
  | nested
deriving DecidableEq, Repr

/-- Where the declaration of an export stands. -/
def Standing.ofExport : Standing → Standing
  | .body => .exported
  | .exported | .nested => .nested

/-- The role of the names in a declaration of variables. -/
def DeclarationKind.role (standing : Standing) : DeclarationKind → Role
  | .var => .hoisted
  | .let_ | .const => .bound (standing != .nested)

/-- The role of the names that a loop through something gives values. -/
def loopRole : Option DeclarationKind → Role
  | some kind => kind.role .body
  | none => .write

/-- Whether an action opens a scope. -/
def Action.isEnter : Action → Bool
  | .enter _ => true
  | _ => false

/-- The number of scopes that some actions open. -/
def opened (actions : List Action) : Nat :=
  actions.countP Action.isEnter

def parameterNames (parameters : List Parameter) : List Identifier :=
  parameters.flatMap fun parameter => parameter.target.names

def parameterDeclarations (parameters : List Parameter) : List Declaration :=
  parameters.flatMap fun parameter =>
    parameter.target.declarations .parameter parameter.span.start

/-- The scope of a function while only some declarations in it have been carried
out. -/
def OpenScope.during (id : ScopeId) (declarations : List Declaration) : OpenScope :=
  ⟨id, .function, some (declarations.map fun declaration => declaration.name.name)⟩

/-- The scope of a function while its parameters are walked along. -/
def parameterScope (id : ScopeId) (parameters : List Parameter) : OpenScope :=
  .during id (parameterDeclarations parameters)

/-- The open scopes inside a function or class that may have a name. -/
def nameScopes (name? : Option Identifier) (scopes : List OpenScope) (next : ScopeId) :
    List OpenScope :=
  match name? with
  | some _ => ⟨next, .block, none⟩ :: scopes
  | none => scopes

/-- The scope behind the one that a name has for itself, if there is a name. -/
def nameNext (name? : Option Identifier) (next : ScopeId) : ScopeId :=
  next + name?.toList.length

/-- The occurrence of the name of a function or class that may have one. -/
def nameSites (name? : Option Identifier) (scopes : List OpenScope) (next : ScopeId) : List Site :=
  sitesOf (.bound true) (nameScopes name? scopes next) name?.toList

mutual

/-- The occurrences in an expression, given the open scopes and the number of
the scope that is opened next. -/
def Expr.sites (scopes : List OpenScope) (next : ScopeId) : Expr → List Site
  | .number _ _ | .string _ _ _ | .boolean _ _ | .null _ | .regex _ _ _ => []
  | .symbol name _ => [⟨name, .read, scopes⟩]
  | .array elements _ => exprSites scopes next elements
  | .object properties _ => propertySites scopes next properties
  | .function name? parameters body _ _ =>
      nameSites name? scopes next ++
        functionSites (nameScopes name? scopes next) (nameNext name? next) parameters
          (parameterSites
            (parameterScope (nameNext name? next) parameters :: nameScopes name? scopes next)
            (nameNext name? next + 1) parameters)
          body
  | .binary _ left right _ =>
      left.sites scopes next ++ right.sites scopes (next + opened left.actions)
  | .unary _ operand _ => operand.sites scopes next
  | .update _ (.symbol name _) _ _ => [⟨name, .write, scopes⟩]
  | .update _ operand _ _ => operand.sites scopes next
  | .assignment _ (.symbol name _) value _ => ⟨name, .write, scopes⟩ :: value.sites scopes next
  | .assignment _ target value _ =>
      target.sites scopes next ++ value.sites scopes (next + opened target.actions)
  | .call callee arguments _ | .new callee arguments _ =>
      callee.sites scopes next ++ exprSites scopes (next + opened callee.actions) arguments
  | .member object _ _ => object.sites scopes next
  | .index object index _ =>
      object.sites scopes next ++ index.sites scopes (next + opened object.actions)
  | .conditional test consequent alternate _ =>
      test.sites scopes next ++ consequent.sites scopes (next + opened test.actions) ++
        alternate.sites scopes (next + opened (test.actions ++ consequent.actions))
  | .template _ substitutions _ => exprSites scopes next substitutions
  | .sequence operands _ => exprSites scopes next operands
  | .spread argument _ => argument.sites scopes next
  | .classDef name? superclass? members _ =>
      nameSites name? scopes next ++
        exprSites? (nameScopes name? scopes next) (nameNext name? next) superclass? ++
        memberSites (nameScopes name? scopes next)
          (nameNext name? next + opened (exprActions? superclass?)) members

/-- The occurrences in expressions, where each opens its scopes behind the others. -/
def exprSites (scopes : List OpenScope) (next : ScopeId) : List Expr → List Site
  | [] => []
  | expr :: others =>
      expr.sites scopes next ++ exprSites scopes (next + opened expr.actions) others

def exprSites? (scopes : List OpenScope) (next : ScopeId) : Option Expr → List Site
  | none => []
  | some expr => expr.sites scopes next

def propertySites (scopes : List OpenScope) (next : ScopeId) : List Property → List Site
  | [] => []
  | ⟨_, value⟩ :: others =>
      value.sites scopes next ++ propertySites scopes (next + opened value.actions) others

def elementSites (scopes : List OpenScope) (next : ScopeId) : List PatternElement → List Site
  | [] => []
  | ⟨_, default?, _⟩ :: others =>
      exprSites? scopes next default? ++
        elementSites scopes (next + opened (exprActions? default?)) others

/-- The occurrences in the defaults of a target. -/
def Target.sites (scopes : List OpenScope) (next : ScopeId) : Target → List Site
  | .name _ => []
  | .pattern elements nestedDefaults =>
      elementSites scopes next elements ++
        exprSites scopes (next + opened (elementActions elements)) nestedDefaults

/-- The occurrences in the defaults of parameters. -/
def parameterSites (scopes : List OpenScope) (next : ScopeId) : List Parameter → List Site
  | [] => []
  | ⟨target, default?, _, _⟩ :: others =>
      exprSites? scopes next default? ++
        target.sites scopes (next + opened (exprActions? default?)) ++
        parameterSites scopes (next + opened (exprActions? default? ++ target.actions)) others

/-- The occurrences in a function, given those in the defaults of its
parameters.  The scopes are those around the scope of the function. -/
def functionSites (scopes : List OpenScope) (next : ScopeId) (parameters : List Parameter)
    (defaults : List Site) : Block → List Site
  | ⟨_, body, _⟩ =>
      sitesOf (.bound true) (parameterScope next parameters :: scopes)
          (parameterNames parameters) ++
        defaults ++
        stmtSites .body (⟨next, .function, none⟩ :: scopes)
          (next + 1 + opened (parameterActions parameters)) body

/-- The occurrences in the members of a class. -/
def memberSites (scopes : List OpenScope) (next : ScopeId) : List Member → List Site
  | [] => []
  | ⟨_, _, value?, _⟩ :: others =>
      exprSites? scopes next value? ++
        memberSites scopes (next + opened (exprActions? value?)) others

/-- The occurrences in a block, which opens a scope. -/
def Block.sites (scopes : List OpenScope) (next : ScopeId) : Block → List Site
  | ⟨_, body, _⟩ => stmtSites .body (⟨next, .block, none⟩ :: scopes) (next + 1) body

def blockSites? (scopes : List OpenScope) (next : ScopeId) : Option Block → List Site
  | none => []
  | some block => block.sites scopes next

/-- The occurrences in declarators, each name in front of its value. -/
def declaratorSites (role : Role) (scopes : List OpenScope) (next : ScopeId) :
    List Declarator → List Site
  | [] => []
  | ⟨target, value?, _⟩ :: others =>
      sitesOf role scopes target.names ++ exprSites? scopes next value? ++
        target.sites scopes (next + opened (exprActions? value?)) ++
        declaratorSites role scopes (next + opened (exprActions? value? ++ target.actions)) others

/-- The occurrences in a catch clause, whose parameter has a scope of its own
around the body. -/
def handlerSites? (scopes : List OpenScope) (next : ScopeId) : Option CatchClause → List Site
  | none => []
  | some ⟨none, body, _⟩ => body.sites (⟨next, .block, none⟩ :: scopes) (next + 1)
  | some ⟨some target, body, _⟩ =>
      sitesOf (.bound true) (⟨next, .block, none⟩ :: scopes) target.names ++
        target.sites (⟨next, .block, none⟩ :: scopes) (next + 1) ++
        body.sites (⟨next, .block, none⟩ :: scopes) (next + 1 + opened target.actions)

/-- The occurrences in the clauses of a switch statement. -/
def clauseSites (scopes : List OpenScope) (next : ScopeId) : List SwitchClause → List Site
  | [] => []
  | ⟨test?, body, _⟩ :: others =>
      exprSites? scopes next test? ++
        stmtSites .body scopes (next + opened (exprActions? test?)) body ++
        clauseSites scopes (next + opened (exprActions? test? ++ stmtActions body)) others

def Stmt.sites (standing : Standing) (scopes : List OpenScope) (next : ScopeId) :
    Stmt → List Site
  | .expression value _ => value.sites scopes next
  | .block block => block.sites scopes next
  | .varDeclaration kind declarators _ =>
      declaratorSites (kind.role standing) scopes next declarators
  | .conditional condition consequent alternate? _ =>
      condition.sites scopes next ++
        consequent.sites .nested scopes (next + opened condition.actions) ++
        stmtSites? .nested scopes (next + opened (condition.actions ++ consequent.actions))
          alternate?
  | .whileLoop condition body _ =>
      condition.sites scopes next ++ body.sites .nested scopes (next + opened condition.actions)
  | .doWhile body condition _ =>
      body.sites .nested scopes next ++ condition.sites scopes (next + opened body.actions)
  | .forLoop init? condition? update? body _ _ =>
      stmtSites? .body (⟨next, .block, none⟩ :: scopes) (next + 1) init? ++
        exprSites? (⟨next, .block, none⟩ :: scopes) (next + 1 + opened (stmtActions? init?))
          condition? ++
        exprSites? (⟨next, .block, none⟩ :: scopes)
          (next + 1 + opened (stmtActions? init? ++ exprActions? condition?)) update? ++
        body.sites .nested (⟨next, .block, none⟩ :: scopes)
          (next + 1 + opened (stmtActions? init? ++ exprActions? condition? ++
            exprActions? update?))
  | .forEach kind? target _ subject body _ _ =>
      subject.sites scopes next ++
        (sitesOf (loopRole kind?) (⟨next + opened subject.actions, .block, none⟩ :: scopes)
            target.names ++
          target.sites (⟨next + opened subject.actions, .block, none⟩ :: scopes)
            (next + opened subject.actions + 1) ++
          body.sites .nested (⟨next + opened subject.actions, .block, none⟩ :: scopes)
            (next + opened subject.actions + 1 + opened target.actions))
  | .function name parameters body _ =>
      ⟨name, .hoisted, scopes⟩ ::
        functionSites scopes next parameters
          (parameterSites (parameterScope next parameters :: scopes) (next + 1) parameters) body
  | .result value? _ => exprSites? scopes next value?
  | .imports bindings _ _ => sitesOf .hoisted scopes (bindings.map ImportBinding.name)
  | .exports declaration _ => declaration.sites standing.ofExport scopes next
  | .leave _ | .skip _ | .empty _ => []
  | .guarded block handler? finalizer? _ =>
      block.sites scopes next ++ handlerSites? scopes (next + opened block.actions) handler? ++
        blockSites? scopes (next + opened (block.actions ++ handlerActions? handler?)) finalizer?
  | .raise value _ => value.sites scopes next
  | .switch subject clauses _ =>
      subject.sites scopes next ++
        clauseSites (⟨next + opened subject.actions, .block, none⟩ :: scopes)
          (next + opened subject.actions + 1) clauses
  | .labeled _ body _ => body.sites .nested scopes next
  | .classDef name superclass? members _ =>
      ⟨name, .bound (standing != .nested), scopes⟩ ::
        (exprSites? scopes next superclass? ++
          memberSites scopes (next + opened (exprActions? superclass?)) members)

def stmtSites? (standing : Standing) (scopes : List OpenScope) (next : ScopeId) :
    Option Stmt → List Site
  | none => []
  | some stmt => stmt.sites standing scopes next

/-- The occurrences in statements, where each opens its scopes behind the others. -/
def stmtSites (standing : Standing) (scopes : List OpenScope) (next : ScopeId) :
    List Stmt → List Site
  | [] => []
  | stmt :: others =>
      stmt.sites standing scopes next ++
        stmtSites standing scopes (next + opened stmt.actions) others

end

attribute [simp] Expr.sites Target.sites Block.sites Stmt.sites

/-- The occurrences in a script. -/
def scriptSites (root : Block) : List Site :=
  stmtSites .body [⟨0, .script, none⟩] 1 root.body

end ScriptKinds
