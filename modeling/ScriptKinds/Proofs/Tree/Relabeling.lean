import ScriptKinds.Syntax.Tree

namespace ScriptKinds

/-- What becomes of the data at the nodes of a tree. -/
structure Relabeling where
  name : Identifier → Identifier := fun name => name
  /-- The number of a block or a loop. -/
  id : NodeId → NodeId := fun id => id
  span : Span → Span := fun span => span
  operator : Token → Token := fun operator => operator
  number : Binary64 → Binary64 := fun value => value
  boolean : Bool → Bool := fun value => value
  /-- The content of a string or of a regular expression. -/
  text : String → String := fun text => text
  /-- The texts between the substitutions of a template. -/
  texts : List String → List String := fun texts => texts
  /-- The key of a property or member, a label or the source of an import. -/
  key : String → String := fun key => key

variable (r : Relabeling)

/-- An imported name with its number and its span replaced. -/
def ImportBinding.relabel (binding : ImportBinding) : ImportBinding :=
  ⟨r.name binding.name, r.span binding.span⟩

mutual

/-- An expression with its numbers and spans replaced. -/
def Expr.relabel : Expr → Expr
  | .number value span => .number (r.number value) (r.span span)
  | .string value template span => .string (r.text value) template (r.span span)
  | .boolean value span => .boolean (r.boolean value) (r.span span)
  | .null span => .null (r.span span)
  | .symbol name span => .symbol (r.name name) (r.span span)
  | .array elements span => .array (relabelExprs elements) (r.span span)
  | .object properties span => .object (relabelProperties properties) (r.span span)
  | .function name? parameters body arrow span =>
      .function (name?.map r.name) (relabelParameters parameters) body.relabel arrow (r.span span)
  | .binary operator left right span =>
      .binary (r.operator operator) left.relabel right.relabel (r.span span)
  | .unary operator operand span => .unary (r.operator operator) operand.relabel (r.span span)
  | .update operator operand leading span =>
      .update (r.operator operator) operand.relabel leading (r.span span)
  | .assignment operator target value span =>
      .assignment (r.operator operator) target.relabel value.relabel (r.span span)
  | .call callee arguments span => .call callee.relabel (relabelExprs arguments) (r.span span)
  | .member object name span => .member object.relabel (r.key name) (r.span span)
  | .index object index span => .index object.relabel index.relabel (r.span span)
  | .new callee arguments span => .new callee.relabel (relabelExprs arguments) (r.span span)
  | .conditional test consequent alternate span =>
      .conditional test.relabel consequent.relabel alternate.relabel (r.span span)
  | .template texts substitutions span =>
      .template (r.texts texts) (relabelExprs substitutions) (r.span span)
  | .regex pattern flags span => .regex (r.text pattern) (r.text flags) (r.span span)
  | .sequence operands span => .sequence (relabelExprs operands) (r.span span)
  | .spread argument span => .spread argument.relabel (r.span span)
  | .classDef name? superclass? members span =>
      .classDef (name?.map r.name) (relabelExpr? superclass?) (relabelMembers members)
        (r.span span)

def relabelExprs : List Expr → List Expr
  | [] => []
  | expr :: others => expr.relabel :: relabelExprs others

def relabelExpr? : Option Expr → Option Expr
  | none => none
  | some expr => some expr.relabel

def relabelProperties : List Property → List Property
  | [] => []
  | ⟨key, value⟩ :: others => ⟨r.key key, value.relabel⟩ :: relabelProperties others

def relabelElements : List PatternElement → List PatternElement
  | [] => []
  | ⟨name, default?, span⟩ :: others =>
      ⟨r.name name, relabelExpr? default?, r.span span⟩ :: relabelElements others

/-- A target with its numbers and spans replaced. -/
def Target.relabel : Target → Target
  | .name name => .name (r.name name)
  | .pattern elements nestedDefaults =>
      .pattern (relabelElements elements) (relabelExprs nestedDefaults)

def relabelTarget? : Option Target → Option Target
  | none => none
  | some target => some target.relabel

def relabelParameters : List Parameter → List Parameter
  | [] => []
  | ⟨target, default?, rest, span⟩ :: others =>
      ⟨target.relabel, relabelExpr? default?, rest, r.span span⟩ :: relabelParameters others

def relabelMembers : List Member → List Member
  | [] => []
  | ⟨key, isStatic, value?, span⟩ :: others =>
      ⟨r.key key, isStatic, relabelExpr? value?, r.span span⟩ :: relabelMembers others

/-- A block with its numbers and spans replaced. -/
def Block.relabel : Block → Block
  | ⟨id, body, span⟩ => ⟨r.id id, relabelStmts body, r.span span⟩

def relabelBlock? : Option Block → Option Block
  | none => none
  | some block => some block.relabel

def relabelDeclarators : List Declarator → List Declarator
  | [] => []
  | ⟨target, value?, span⟩ :: others =>
      ⟨target.relabel, relabelExpr? value?, r.span span⟩ :: relabelDeclarators others

def relabelHandler? : Option CatchClause → Option CatchClause
  | none => none
  | some ⟨parameter?, body, span⟩ =>
      some ⟨relabelTarget? parameter?, body.relabel, r.span span⟩

def relabelClauses : List SwitchClause → List SwitchClause
  | [] => []
  | ⟨test?, body, span⟩ :: others =>
      ⟨relabelExpr? test?, relabelStmts body, r.span span⟩ :: relabelClauses others

/-- A statement with its numbers and spans replaced. -/
def Stmt.relabel : Stmt → Stmt
  | .expression value span => .expression value.relabel (r.span span)
  | .block block => .block block.relabel
  | .varDeclaration kind declarators span =>
      .varDeclaration kind (relabelDeclarators declarators) (r.span span)
  | .conditional condition consequent alternate? span =>
      .conditional condition.relabel consequent.relabel (relabelStmt? alternate?) (r.span span)
  | .whileLoop condition body span => .whileLoop condition.relabel body.relabel (r.span span)
  | .doWhile body condition span => .doWhile body.relabel condition.relabel (r.span span)
  | .forLoop init? condition? update? body id span =>
      .forLoop (relabelStmt? init?) (relabelExpr? condition?) (relabelExpr? update?) body.relabel
        (r.id id) (r.span span)
  | .forEach kind? target overValues subject body id span =>
      .forEach kind? target.relabel overValues subject.relabel body.relabel (r.id id)
        (r.span span)
  | .function name parameters body span =>
      .function (r.name name) (relabelParameters parameters) body.relabel (r.span span)
  | .result value? span => .result (relabelExpr? value?) (r.span span)
  | .imports bindings source span =>
      .imports (bindings.map (ImportBinding.relabel r)) (r.key source) (r.span span)
  | .exports declaration span => .exports declaration.relabel (r.span span)
  | .leave span => .leave (r.span span)
  | .skip span => .skip (r.span span)
  | .empty span => .empty (r.span span)
  | .guarded block handler? finalizer? span =>
      .guarded block.relabel (relabelHandler? handler?) (relabelBlock? finalizer?) (r.span span)
  | .raise value span => .raise value.relabel (r.span span)
  | .switch subject clauses span =>
      .switch subject.relabel (relabelClauses clauses) (r.span span)
  | .labeled label body span => .labeled (r.key label) body.relabel (r.span span)
  | .classDef name superclass? members span =>
      .classDef (r.name name) (relabelExpr? superclass?) (relabelMembers members) (r.span span)

def relabelStmt? : Option Stmt → Option Stmt
  | none => none
  | some stmt => some stmt.relabel

def relabelStmts : List Stmt → List Stmt
  | [] => []
  | stmt :: others => stmt.relabel :: relabelStmts others

end

section Lists

theorem relabelStmts_eq (stmts : List Stmt) :
    relabelStmts r stmts = stmts.map (Stmt.relabel r) := by
  induction stmts with
  | nil => rfl
  | cons stmt others ih => rw [relabelStmts, ih, List.map_cons]

theorem Target.names_relabel (target : Target) :
    (target.relabel r).names = target.names.map r.name := by
  cases target with
  | name name => rfl
  | pattern elements nestedDefaults =>
      simp only [Target.relabel, Target.names]
      induction elements with
      | nil => rfl
      | cons element others ih =>
          obtain ⟨name, default?, span⟩ := element
          simp only [relabelElements, List.map_cons, ih]

end Lists

/-- Changes all names and leaves out what does not matter to them: the contents
of literals, keys, labels and sources. -/
def Relabeling.outline (respell : String → String) : Relabeling where
  name name := ⟨respell name.name, name.id⟩
  number _ := .zero
  boolean _ := false
  text _ := ""
  texts _ := []
  key _ := ""

/-- Leaves out the numbers and spans of the nodes of a tree. -/
def Relabeling.unplaced : Relabeling where
  name name := ⟨name.name, 0⟩
  id _ := 0
  span _ := ⟨0, 0⟩

end ScriptKinds
