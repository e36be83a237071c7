import ScriptKinds.Numeric.Binary64
import ScriptKinds.Token.Basic

/-!
Syntax trees of scripts.

Every occurrence of an identifier, every block and every `for` statement
carries a number that is unique in its tree, so that facts about them can be
recorded outside the tree.  Every node carries the span of source that it
covers.  Parentheses leave no trace.
-/

namespace ScriptKinds

/-- A number of a node.  Numbers are exact; a counter of 32 bits with a sign keeps those
below `2 ^ 31`. -/
abbrev NodeId := Nat

/-- An occurrence of a name. -/
structure Identifier where
  name : String
  id : NodeId
deriving DecidableEq, Repr, Inhabited

inductive DeclarationKind where
  | var | let_ | const
deriving DecidableEq, Repr, Inhabited

/-- A name bound by an import. -/
structure ImportBinding where
  name : Identifier
  span : Span
deriving DecidableEq, Repr, Inhabited

mutual

/-- Expressions. -/
inductive Expr where
  | number (value : Binary64) (span : Span)
  /-- A string, or a template without substitutions. -/
  | string (value : String) (template : Bool) (span : Span)
  | boolean (value : Bool) (span : Span)
  | null (span : Span)
  | symbol (name : Identifier) (span : Span)
  /-- The elements of an array literal, without its holes. -/
  | array (elements : List Expr) (span : Span)
  | object (properties : List Property) (span : Span)
  | function (name? : Option Identifier) (parameters : List Parameter) (body : Block)
      (arrow : Bool) (span : Span)
  | binary (operator : Token) (left right : Expr) (span : Span)
  | unary (operator : Token) (operand : Expr) (span : Span)
  /-- An increment or decrement; `leading` if the operator comes first. -/
  | update (operator : Token) (operand : Expr) (leading : Bool) (span : Span)
  | assignment (operator : Token) (target value : Expr) (span : Span)
  | call (callee : Expr) (arguments : List Expr) (span : Span)
  | member (object : Expr) (name : String) (span : Span)
  | index (object index : Expr) (span : Span)
  | new (callee : Expr) (arguments : List Expr) (span : Span)
  | conditional (test consequent alternate : Expr) (span : Span)
  /-- The texts of a template and the substitutions between them. -/
  | template (texts : List String) (substitutions : List Expr) (span : Span)
  | regex (pattern flags : String) (span : Span)
  | sequence (operands : List Expr) (span : Span)
  | spread (argument : Expr) (span : Span)
  | classDef (name? : Option Identifier) (superclass? : Option Expr) (members : List Member)
      (span : Span)

/-- A property of an object literal.  The key of a spread entry is `...`. -/
structure Property where
  key : String
  value : Expr

/-- What a declaration binds: a name, or a pattern, which is kept as the list
of names in it and the defaults of its nested patterns. -/
inductive Target where
  | name (name : Identifier)
  | pattern (elements : List PatternElement) (nestedDefaults : List Expr)

/-- A name in a pattern. -/
structure PatternElement where
  name : Identifier
  default? : Option Expr
  span : Span

structure Parameter where
  target : Target
  default? : Option Expr
  /-- Whether the parameter takes all remaining arguments. -/
  rest : Bool
  span : Span

/-- A method, or a field with an optional initial value, of a class. -/
structure Member where
  key : String
  isStatic : Bool
  value? : Option Expr
  span : Span

/-- Statements between braces, or those of a whole script. -/
structure Block where
  id : NodeId
  body : List Stmt
  span : Span

/-- A target that is declared, with the value that it is given. -/
structure Declarator where
  target : Target
  value? : Option Expr
  span : Span

/-- A catch clause, with or without a parameter. -/
structure CatchClause where
  parameter? : Option Target
  body : Block
  span : Span

/-- A clause of a `switch` statement.  The default clause has no test. -/
structure SwitchClause where
  test? : Option Expr
  body : List Stmt
  span : Span

/-- Statements. -/
inductive Stmt where
  | expression (value : Expr) (span : Span)
  | block (block : Block)
  | varDeclaration (kind : DeclarationKind) (declarators : List Declarator) (span : Span)
  | conditional (condition : Expr) (consequent : Stmt) (alternate? : Option Stmt) (span : Span)
  | whileLoop (condition : Expr) (body : Stmt) (span : Span)
  | doWhile (body : Stmt) (condition : Expr) (span : Span)
  | forLoop (init? : Option Stmt) (condition? update? : Option Expr) (body : Stmt) (id : NodeId)
      (span : Span)
  /-- A loop over the keys of an object, or over its values if `overValues`. -/
  | forEach (kind? : Option DeclarationKind) (target : Target) (overValues : Bool) (subject : Expr)
      (body : Stmt) (id : NodeId) (span : Span)
  | function (name : Identifier) (parameters : List Parameter) (body : Block) (span : Span)
  | result (value? : Option Expr) (span : Span)
  | imports (bindings : List ImportBinding) (source : String) (span : Span)
  | exports (declaration : Stmt) (span : Span)
  | leave (span : Span)
  | skip (span : Span)
  | empty (span : Span)
  | guarded (block : Block) (handler? : Option CatchClause) (finalizer? : Option Block)
      (span : Span)
  | raise (value : Expr) (span : Span)
  | switch (subject : Expr) (clauses : List SwitchClause) (span : Span)
  | labeled (label : String) (body : Stmt) (span : Span)
  | classDef (name : Identifier) (superclass? : Option Expr) (members : List Member) (span : Span)

end

namespace Expr

def span : Expr → Span
  | number _ span | string _ _ span | boolean _ span | null span | symbol _ span => span
  | array _ span | object _ span | function _ _ _ _ span | binary _ _ _ span => span
  | unary _ _ span | update _ _ _ span | assignment _ _ _ span | call _ _ span => span
  | member _ _ span | index _ _ span | new _ _ span | conditional _ _ _ span => span
  | template _ _ span | regex _ _ span | sequence _ span | spread _ span => span
  | classDef _ _ _ span => span

/-- The name under which messages mention a form of expression. -/
def formName : Expr → String
  | number .. => "Number"
  | string .. => "String"
  | boolean .. => "Boolean"
  | null .. => "Null"
  | symbol .. => "Symbol"
  | array .. => "Array"
  | object .. => "Object"
  | function .. => "Function"
  | binary .. => "Binary"
  | unary .. => "Prefix"
  | update .. => "Update"
  | assignment .. => "Assignment"
  | call .. => "CallExpr"
  | member .. | index .. => "Member"
  | new .. => "New"
  | conditional .. => "Conditional"
  | template .. => "Template"
  | regex .. => "Regex"
  | sequence .. => "Sequence"
  | spread .. => "Spread"
  | classDef .. => "Class"

/-- Whether something can be assigned to an expression. -/
def isAssignable : Expr → Bool
  | symbol .. | member .. | index .. => true
  | _ => false

end Expr

namespace Stmt

def span : Stmt → Span
  | expression _ span | varDeclaration _ _ span | conditional _ _ _ span => span
  | whileLoop _ _ span | doWhile _ _ span | forLoop _ _ _ _ _ span => span
  | forEach _ _ _ _ _ _ span | function _ _ _ span | result _ span | imports _ _ span => span
  | exports _ span | leave span | skip span | empty span | guarded _ _ _ span => span
  | raise _ span | switch _ _ span | labeled _ _ span | classDef _ _ _ span => span
  | block inner => inner.span

end Stmt

/-- The names that a target binds, in order. -/
def Target.names : Target → List Identifier
  | name bound => [bound]
  | pattern elements _ => elements.map PatternElement.name

end ScriptKinds
