import ScriptKinds.Syntax.Tree

namespace ScriptKinds

mutual

/-- The copy of an expression, part by part. -/
def Expr.copy : Expr → Expr
  | .number value span => .number value span
  | .string value template span => .string value template span
  | .boolean value span => .boolean value span
  | .null span => .null span
  | .symbol name span => .symbol name span
  | .array elements span => .array (copyExprs elements) span
  | .object properties span => .object (copyProperties properties) span
  | .function name? parameters body arrow span =>
      .function name? (copyParameters parameters) body.copy arrow span
  | .binary operator left right span => .binary operator left.copy right.copy span
  | .unary operator operand span => .unary operator operand.copy span
  | .update operator operand leading span => .update operator operand.copy leading span
  | .assignment operator target value span =>
      .assignment operator target.copy value.copy span
  | .call callee arguments span => .call callee.copy (copyExprs arguments) span
  | .member object name span => .member object.copy name span
  | .index object index span => .index object.copy index.copy span
  | .new callee arguments span => .new callee.copy (copyExprs arguments) span
  | .conditional test consequent alternate span =>
      .conditional test.copy consequent.copy alternate.copy span
  | .template texts substitutions span => .template texts (copyExprs substitutions) span
  | .regex pattern flags span => .regex pattern flags span
  | .sequence operands span => .sequence (copyExprs operands) span
  | .spread argument span => .spread argument.copy span
  | .classDef name? superclass? members span =>
      .classDef name? (copyExpr? superclass?) (copyMembers members) span

def copyExprs : List Expr → List Expr
  | [] => []
  | expr :: others => expr.copy :: copyExprs others

def copyExpr? : Option Expr → Option Expr
  | none => none
  | some expr => some expr.copy

def Property.copy : Property → Property
  | ⟨key, value⟩ => ⟨key, value.copy⟩

def copyProperties : List Property → List Property
  | [] => []
  | property :: others => property.copy :: copyProperties others

/-- The copy of a name in a pattern. -/
def PatternElement.copy : PatternElement → PatternElement
  | ⟨name, default?, span⟩ => ⟨name, copyExpr? default?, span⟩

def copyElements : List PatternElement → List PatternElement
  | [] => []
  | element :: others => element.copy :: copyElements others

def Target.copy : Target → Target
  | .name name => .name name
  | .pattern elements nestedDefaults =>
      .pattern (copyElements elements) (copyExprs nestedDefaults)

def Parameter.copy : Parameter → Parameter
  | ⟨target, default?, rest, span⟩ => ⟨target.copy, copyExpr? default?, rest, span⟩

def copyParameters : List Parameter → List Parameter
  | [] => []
  | parameter :: others => parameter.copy :: copyParameters others

/-- The copy of a member of a class. -/
def Member.copy : Member → Member
  | ⟨key, isStatic, value?, span⟩ => ⟨key, isStatic, copyExpr? value?, span⟩

def copyMembers : List Member → List Member
  | [] => []
  | member :: others => member.copy :: copyMembers others

def Block.copy : Block → Block
  | ⟨id, body, span⟩ => ⟨id, copyStmts body, span⟩

def copyBlock? : Option Block → Option Block
  | none => none
  | some block => some block.copy

def Declarator.copy : Declarator → Declarator
  | ⟨target, value?, span⟩ => ⟨target.copy, copyExpr? value?, span⟩

def copyDeclarators : List Declarator → List Declarator
  | [] => []
  | declarator :: others => declarator.copy :: copyDeclarators others

def copyTarget? : Option Target → Option Target
  | none => none
  | some target => some target.copy

/-- The copy of a catch clause. -/
def CatchClause.copy : CatchClause → CatchClause
  | ⟨parameter?, body, span⟩ => ⟨copyTarget? parameter?, body.copy, span⟩

def copyHandler? : Option CatchClause → Option CatchClause
  | none => none
  | some handler => some handler.copy

/-- The copy of a clause of a switch statement. -/
def SwitchClause.copy : SwitchClause → SwitchClause
  | ⟨test?, body, span⟩ => ⟨copyExpr? test?, copyStmts body, span⟩

def copyClauses : List SwitchClause → List SwitchClause
  | [] => []
  | clause :: others => clause.copy :: copyClauses others

/-- The copy of a statement, part by part. -/
def Stmt.copy : Stmt → Stmt
  | .expression value _ => .expression value.copy value.span
  | .block block => .block block.copy
  | .varDeclaration kind declarators span => .varDeclaration kind (copyDeclarators declarators) span
  | .conditional condition consequent alternate? span =>
      .conditional condition.copy consequent.copy (copyStmt? alternate?) span
  | .whileLoop condition body span => .whileLoop condition.copy body.copy span
  | .doWhile body condition span => .doWhile body.copy condition.copy span
  | .forLoop init? condition? update? body id span =>
      .forLoop (copyStmt? init?) (copyExpr? condition?) (copyExpr? update?) body.copy id span
  | .forEach kind? target overValues subject body id span =>
      .forEach kind? target.copy overValues subject.copy body.copy id span
  | .function name parameters body span =>
      .function name (copyParameters parameters) body.copy span
  | .result value? span => .result (copyExpr? value?) span
  | .imports bindings source span => .imports bindings source span
  | .exports declaration span => .exports declaration.copy span
  | .leave span => .leave span
  | .skip span => .skip span
  | .empty span => .empty span
  | .guarded block handler? finalizer? span =>
      .guarded block.copy (copyHandler? handler?) (copyBlock? finalizer?) span
  | .raise value span => .raise value.copy span
  | .switch subject clauses span => .switch subject.copy (copyClauses clauses) span
  | .labeled label body span => .labeled label body.copy span
  | .classDef name superclass? members span =>
      .classDef name (copyExpr? superclass?) (copyMembers members) span

def copyStmt? : Option Stmt → Option Stmt
  | none => none
  | some stmt => some stmt.copy

def copyStmts : List Stmt → List Stmt
  | [] => []
  | stmt :: others => stmt.copy :: copyStmts others

end

end ScriptKinds
