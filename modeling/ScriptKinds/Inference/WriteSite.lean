import ScriptKinds.Inference.Classification

/-!
Write sites: the places of a script that give a value to a name.

The write sites of a tree are listed in the order in which they take effect,
which is from left to right except that the value of a site comes before the
site itself.
-/

namespace ScriptKinds

/-- What a write site adds to the kinds of its target. -/
inductive Contribution where
  | kind (kind : Kind)
  /-- The kinds that an expression has when the site takes effect. -/
  | value (value : Expr)

/-- A place that gives a value to the symbol of an occurrence. -/
structure WriteSite where
  target : NodeId
  contribution : Contribution

namespace WriteSite

/-- A site that gives a name a fixed kind. -/
def ofKind (kind : Kind) (name : Identifier) : WriteSite :=
  ⟨name.id, .kind kind⟩

/-- A site that gives a name the kinds of a value. -/
def ofValue (value : Expr) (name : Identifier) : WriteSite :=
  ⟨name.id, .value value⟩

end WriteSite

mutual

/-- The write sites of an expression, in the order in which they take effect. -/
def Expr.writes : Expr → List WriteSite
  | .number _ _ | .string _ _ _ | .boolean _ _ | .null _ | .symbol _ _ | .regex _ _ _ => []
  | .assignment operator (.symbol name nameSpan) value span =>
      value.writes ++ [.ofValue (.assignment operator (.symbol name nameSpan) value span) name]
  | .assignment _ target value _ => value.writes ++ target.writes
  | .update _ (.symbol name _) _ _ => [.ofKind .number name]
  | .update _ operand _ _ => operand.writes
  | .array elements _ => exprWrites elements
  | .object properties _ => propertyWrites properties
  | .function name? parameters body _ _ =>
      name?.toList.map (.ofKind .function) ++ parameterWrites parameters ++ body.writes
  | .binary _ left right _ => left.writes ++ right.writes
  | .unary _ operand _ => operand.writes
  | .call callee arguments _ | .new callee arguments _ => callee.writes ++ exprWrites arguments
  | .member object _ _ => object.writes
  | .index object index _ => object.writes ++ index.writes
  | .conditional test consequent alternate _ =>
      test.writes ++ consequent.writes ++ alternate.writes
  | .template _ substitutions _ => exprWrites substitutions
  | .sequence operands _ => exprWrites operands
  | .spread argument _ => argument.writes
  | .classDef name? superclass? members _ =>
      name?.toList.map (.ofKind .function) ++ exprWrites? superclass? ++ memberWrites members

def exprWrites : List Expr → List WriteSite
  | [] => []
  | expr :: others => expr.writes ++ exprWrites others

def exprWrites? : Option Expr → List WriteSite
  | none => []
  | some expr => expr.writes

def propertyWrites : List Property → List WriteSite
  | [] => []
  | ⟨_, value⟩ :: others => value.writes ++ propertyWrites others

/-- The write sites of giving a name a value, if there is one. -/
def valueWrites (name : Identifier) : Option Expr → List WriteSite
  | none => []
  | some value => value.writes ++ [.ofValue value name]

/-- The write sites of the names in a pattern.  Each name gets its default and,
if the value taken apart is not known, also the kind given. -/
def elementWrites (kind? : Option Kind) : List PatternElement → List WriteSite
  | [] => []
  | ⟨name, default?, _⟩ :: others =>
      valueWrites name default? ++ kind?.toList.map (fun kind => .ofKind kind name) ++
        elementWrites kind? others

/-- The write sites of a pattern: those in the defaults of nested patterns, and
then those of its names.  A target that is a name has none of its own. -/
def Target.patternWrites (kind? : Option Kind) : Target → List WriteSite
  | .name _ => []
  | .pattern elements nestedDefaults =>
      exprWrites nestedDefaults ++ elementWrites kind? elements

/-- The write sites of parameters: their defaults, and an array for a rest
parameter. -/
def parameterWrites : List Parameter → List WriteSite
  | [] => []
  | ⟨.name name, default?, rest, _⟩ :: others =>
      valueWrites name default? ++ (if rest then [.ofKind .array name] else []) ++
        parameterWrites others
  | ⟨.pattern elements nestedDefaults, default?, _, _⟩ :: others =>
      exprWrites? default? ++ (Target.pattern elements nestedDefaults).patternWrites none ++
        parameterWrites others

/-- The write sites of the members of a class. -/
def memberWrites : List Member → List WriteSite
  | [] => []
  | ⟨_, _, value?, _⟩ :: others => exprWrites? value? ++ memberWrites others

/-- The write sites of a block. -/
def Block.writes : Block → List WriteSite
  | ⟨_, body, _⟩ => stmtWrites body

def blockWrites? : Option Block → List WriteSite
  | none => []
  | some block => block.writes

/-- The write sites of variable declarations.  One without a value writes
nothing. -/
def declaratorWrites : List Declarator → List WriteSite
  | [] => []
  | ⟨_, none, _⟩ :: others => declaratorWrites others
  | ⟨.name name, some value, _⟩ :: others =>
      value.writes ++ [.ofValue value name] ++ declaratorWrites others
  | ⟨.pattern elements nestedDefaults, some value, _⟩ :: others =>
      value.writes ++ (Target.pattern elements nestedDefaults).patternWrites (some .unknown) ++
        declaratorWrites others

/-- The write sites of a catch clause.  Anything can be thrown. -/
def handlerWrites? : Option CatchClause → List WriteSite
  | none => []
  | some ⟨none, body, _⟩ => body.writes
  | some ⟨some target, body, _⟩ =>
      target.names.map (.ofKind .unknown) ++ target.patternWrites none ++ body.writes

/-- The write sites of the clauses of a switch statement. -/
def clauseWrites : List SwitchClause → List WriteSite
  | [] => []
  | ⟨test?, body, _⟩ :: others => exprWrites? test? ++ stmtWrites body ++ clauseWrites others

/-- The write sites of a statement, in the order in which they take effect. -/
def Stmt.writes : Stmt → List WriteSite
  | .expression value _ => value.writes
  | .block block => block.writes
  | .varDeclaration _ declarators _ => declaratorWrites declarators
  | .conditional condition consequent alternate? _ =>
      condition.writes ++ consequent.writes ++ stmtWrites? alternate?
  | .whileLoop condition body _ => condition.writes ++ body.writes
  | .doWhile body condition _ => body.writes ++ condition.writes
  | .forLoop init? condition? update? body _ _ =>
      stmtWrites? init? ++ exprWrites? condition? ++ exprWrites? update? ++ body.writes
  | .forEach _ (.name name) overValues subject body _ _ =>
      subject.writes ++ [.ofKind (if overValues then .unknown else .string) name] ++ body.writes
  | .forEach _ (.pattern elements nestedDefaults) _ subject body _ _ =>
      subject.writes ++ (Target.pattern elements nestedDefaults).patternWrites (some .unknown) ++
        body.writes
  | .function name parameters body _ =>
      .ofKind .function name :: parameterWrites parameters ++ body.writes
  | .result value? _ => exprWrites? value?
  | .imports bindings _ _ => bindings.map fun binding => .ofKind .unknown binding.name
  | .exports declaration _ => declaration.writes
  | .leave _ | .skip _ | .empty _ => []
  | .guarded block handler? finalizer? _ =>
      block.writes ++ handlerWrites? handler? ++ blockWrites? finalizer?
  | .raise value _ => value.writes
  | .switch subject clauses _ => subject.writes ++ clauseWrites clauses
  | .labeled _ body _ => body.writes
  | .classDef name superclass? members _ =>
      .ofKind .function name :: exprWrites? superclass? ++ memberWrites members

def stmtWrites? : Option Stmt → List WriteSite
  | none => []
  | some stmt => stmt.writes

def stmtWrites : List Stmt → List WriteSite
  | [] => []
  | stmt :: others => stmt.writes ++ stmtWrites others

end

end ScriptKinds
