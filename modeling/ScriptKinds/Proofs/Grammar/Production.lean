import ScriptKinds.Grammar.Statement
import ScriptKinds.Proofs.Tree.Node

/-!
The productions of the grammar.

A production tells of a node of the tree what it is written as: tokens and
smaller nodes, each directly behind the one before it.  Nothing of the text is
left out, so what a node is written as also tells where it ends.
-/

namespace ScriptKinds.Grammar

/-- One of the things that a node is written as. -/
inductive Constituent where
  | token (token : Token)
  /-- The token at this place, which belongs to what follows. -/
  | ahead (token : Token)
  | node (node : Node)
  /-- A node that is written without the words and marks that are otherwise
  part of it. -/
  | bare (node : Node)

namespace Constituent

/-- Expressions as constituents. -/
abbrev exprs (values : List Expr) : List Constituent :=
  values.map fun value => node (.expr value)

/-- Statements as constituents. -/
abbrev stmts (body : List Stmt) : List Constituent :=
  body.map fun stmt => node (.stmt stmt)

end Constituent

open Constituent

section Lists

/-- Nodes in turn, with marks anywhere between them. -/
inductive Listed (mark : Token → Prop) : List Node → List Constituent → Prop
  | nil : Listed mark [] []
  | node {first : Node} {nodes : List Node} {parts : List Constituent}
      (hothers : Listed mark nodes parts) : Listed mark (first :: nodes) (.node first :: parts)
  | mark {token : Token} {nodes : List Node} {parts : List Constituent} (hmark : mark token)
      (hothers : Listed mark nodes parts) : Listed mark nodes (.token token :: parts)

/-- Nodes in turn, with one comma between each two of them. -/
inductive Separated : List Node → List Constituent → Prop
  | single (last : Node) : Separated [last] [.node last]
  | comma {first : Node} {token : Token} {nodes : List Node} {parts : List Constituent}
      (hkind : token.kind = .comma) (hothers : Separated nodes parts) :
      Separated (first :: nodes) (.node first :: .token token :: parts)

/-- Nodes in turn, with marks anywhere between them, in brackets of two kinds. -/
inductive Enclosed (opening closing : TokenKind) (mark : Token → Prop) (nodes : List Node) :
    List Constituent → Prop
  | intro {first last : Token} {inner : List Constituent} (hopening : first.kind = opening)
      (hinner : Listed mark nodes inner) (hclosing : last.kind = closing) :
      Enclosed opening closing mark nodes (.token first :: (inner ++ [Constituent.token last]))

/-- The names and the nested defaults of a pattern, with other tokens anywhere
between them. -/
inductive Scattered : List PatternElement → List Expr → List Constituent → Prop
  | nil : Scattered [] [] []
  | token {token : Token} {elements : List PatternElement} {defaults : List Expr}
      {parts : List Constituent} (hothers : Scattered elements defaults parts) :
      Scattered elements defaults (.token token :: parts)
  | element {first : PatternElement} {elements : List PatternElement} {defaults : List Expr}
      {parts : List Constituent} (hothers : Scattered elements defaults parts) :
      Scattered (first :: elements) defaults (.node (.element first) :: parts)
  | nested {first : Expr} {elements : List PatternElement} {defaults : List Expr}
      {parts : List Constituent} (hothers : Scattered elements defaults parts) :
      Scattered elements (first :: defaults) (.node (.expr first) :: parts)

/-- One token that is there or not. -/
inductive Marked (mark : Token → Prop) : Bool → List Constituent → Prop
  | absent : Marked mark false []
  | present {token : Token} (hmark : mark token) : Marked mark true [.token token]

/-- A node that is there or not, behind a token of a kind. -/
inductive Introduced {α : Type} (kind : TokenKind) (form : α → Node) :
    Option α → List Constituent → Prop
  | absent : Introduced kind form none []
  | present {token : Token} {value : α} (hkind : token.kind = kind) :
      Introduced kind form (some value) [.token token, .node (form value)]

/-- The name of a function or a class, which may be missing. -/
inductive Named : Option Identifier → List Constituent → Prop
  | absent : Named none []
  | present {token : Token} {id : NodeId} (hkind : token.kind = .identifier) :
      Named (some ⟨token.text, id⟩) [.token token]

/-- The end of a statement: a semicolon, or a place where it may be missing. -/
inductive Terminator : List Constituent → Prop
  | semicolon {token : Token} (hkind : token.kind = .semicolon) : Terminator [.token token]
  | omitted {token : Token} (hplace : token.kind = .closeCurly ∨ token.kind = .endOfInput ∨
      token.newlineBefore = true) : Terminator [.ahead token]

end Lists

def OfKind (kind : TokenKind) (token : Token) : Prop :=
  token.kind = kind

/-- A token that starts a form of expression. -/
def Starts (form : LeadingForm) (token : Token) : Prop :=
  Grammar.script.leading? token.kind = some form

/-- A token that continues an expression in a form. -/
def Continues (form : TrailingForm) (token : Token) : Prop :=
  (Grammar.script.trailing? token.kind).map Prod.fst = some form

/-- A token that starts a form of statement. -/
def OpensStmt (form : StatementForm) (token : Token) : Prop :=
  Grammar.script.statement? token.kind = some form

theorem Starts.kind_eq {form : LeadingForm} {kind : TokenKind} {token : Token}
    (h : Starts form token) (hunique : ∀ other ∈ TokenKind.all,
      Grammar.script.leading? other = some form → other = kind) : token.kind = kind :=
  hunique _ (TokenKind.mem_all _) h

theorem Continues.kind_eq {form : TrailingForm} {kind : TokenKind} {token : Token}
    (h : Continues form token) (hunique : ∀ other ∈ TokenKind.all,
      (Grammar.script.trailing? other).map Prod.fst = some form → other = kind) :
    token.kind = kind :=
  hunique _ (TokenKind.mem_all _) h

theorem OpensStmt.kind_eq {form : StatementForm} {kind : TokenKind} {token : Token}
    (h : OpensStmt form token) (hunique : ∀ other ∈ TokenKind.all,
      Grammar.script.statement? other = some form → other = kind) :
    token.kind = kind :=
  hunique _ (TokenKind.mem_all _) h

theorem OpensStmt.ne_end {form : StatementForm} {token : Token} (h : OpensStmt form token) :
    token.kind ≠ .endOfInput := by
  intro hkind
  rw [OpensStmt, hkind] at h
  cases h

/-- The parameters of a function in their parentheses. -/
abbrev Parameters (parameters : List Parameter) : List Constituent → Prop :=
  Enclosed .openParen .closeParen (OfKind .comma) (parameters.map .parameter)

/-- Arguments in parentheses, with commas between them. -/
abbrev Arguments (arguments : List Expr) : List Constituent → Prop :=
  Enclosed .openParen .closeParen (OfKind .comma) (arguments.map .expr)

/-- The superclass and the members of a class. -/
inductive ClassTail (superclass? : Option Expr) (members : List Member) : List Constituent → Prop
  | intro {superclass inner : List Constituent}
      (hsuperclass : Introduced .extendsWord .expr superclass? superclass)
      (hmembers : Enclosed .openCurly .closeCurly (OfKind .semicolon) (members.map .member) inner) :
      ClassTail superclass? members (superclass ++ inner)

/-- One of the words that may stand in front of the name of a class member. -/
def Modifier (words : List String) (token : Token) : Prop :=
  (words.any fun word => token.isWord word) = true

/-- What follows the name of a class member: a method, or a field with an
optional value. -/
inductive MemberValue : Option Expr → List Constituent → Prop
  | method {opening : Token} {value : Expr} (hopening : opening.kind = .openParen) :
      MemberValue (some value) [.ahead opening, .node (.expr value)]
  | field {value? : Option Expr} {value ending : List Constituent}
      (hvalue : Introduced .assignment .expr value? value) (hending : Terminator ending) :
      MemberValue value? (value ++ ending)

/-- The word that declares the variable of a loop, which may be missing. -/
inductive LoopDeclaration : Option DeclarationKind → List Constituent → Prop
  | absent : LoopDeclaration none []
  | present {word : Token} (hword : OpensStmt .varDeclaration word) :
      LoopDeclaration (some (declarationKind word)) [.token word]

/-- What stands in front of the colon of a clause of a `switch` statement. -/
inductive ClauseHead : Option Expr → List Constituent → Prop
  | case {word : Token} {test : Expr} (hword : word.kind = .caseWord) :
      ClauseHead (some test) [.token word, .node (.expr test)]
  | default {word : Token} (hword : word.isWord "default" = true) : ClauseHead none [.token word]

/-- The label of a jump, which stands on the same line. -/
def JumpLabel (token : Token) : Prop :=
  token.kind = .identifier ∧ token.newlineBefore = false

/-- An expression in parentheses. -/
inductive Condition (condition : Expr) : List Constituent → Prop
  | intro {first last : Token} (hopening : first.kind = .openParen)
      (hclosing : last.kind = .closeParen) :
      Condition condition [.token first, .node (.expr condition), .token last]

/-- The body of an arrow function: a block, or an expression that stands for
one. -/
inductive ArrowBody (body : Block) : Constituent → Prop
  | block : ArrowBody body (.node (.block body))
  | expr : ArrowBody body (.bare (.block body))

/-- What a node that is written without its own words and marks is written as:
the first part of a loop head, the expression that is the body of an arrow
function, and its parameter if that is a bare name. -/
inductive BareProduction : Node → List Constituent → Prop
  | declaration {word : Token} {declarators : List Declarator} {inner : List Constituent}
      {span : Span} (hword : OpensStmt .varDeclaration word)
      (hinner : Separated (declarators.map .declarator) inner) :
      BareProduction (.stmt (.varDeclaration (declarationKind word) declarators span))
        (.token word :: inner)
  | expression {value : Expr} :
      BareProduction (.stmt (expressionStmt value)) [.node (.expr value)]
  | body (id : NodeId) {value : Expr} :
      BareProduction (.block ⟨id, [.result (some value) value.span], value.span⟩)
        [.bare (.stmt (.result (some value) value.span))]
  | result {value : Expr} :
      BareProduction (.stmt (.result (some value) value.span)) [.node (.expr value)]
  | parameter {name : Identifier} {span : Span} :
      BareProduction (.parameter ⟨.name name, none, false, span⟩)
        [.node (.expr (.symbol name span))]

/-- What a node is written as. -/
inductive Production : Node → List Constituent → Prop
  -- Expressions.
  | number {token : Token} {value : Binary64} (hkind : token.kind = .number)
      (hvalue : Literal.value? token.text = some value) :
      Production (.expr (.number value token.span)) [.token token]
  | string {token : Token} (hkind : token.kind = .string) :
      Production (.expr (.string token.text false token.span)) [.token token]
  | plainTemplate {token : Token} (hkind : token.kind = .template) :
      Production (.expr (.string token.text true token.span)) [.token token]
  | boolean {token : Token} {value : Bool}
      (hkind : token.kind = if value then .trueWord else .falseWord) :
      Production (.expr (.boolean value token.span)) [.token token]
  | null {token : Token} (hkind : token.kind = .nullWord) :
      Production (.expr (.null token.span)) [.token token]
  | symbol {token : Token} {id : NodeId} (hkind : token.kind = .identifier) :
      Production (.expr (.symbol ⟨token.text, id⟩ token.span)) [.token token]
  | regex {token : Token} {pattern flags : String} (hkind : token.kind = .regex) :
      Production (.expr (.regex pattern flags token.span)) [.token token]
  | template {head tail : Token} {texts : List String} {substitutions : List Expr}
      {inner : List Constituent} {span : Span} (hhead : head.kind = .templateHead)
      (hinner : Listed (OfKind .templateMiddle) (substitutions.map .expr) inner)
      (htail : tail.kind = .templateTail) :
      Production (.expr (.template texts substitutions span))
        (.token head :: (inner ++ [Constituent.token tail]))
  | array {elements : List Expr} {parts : List Constituent} {span : Span}
      (h : Enclosed .openBracket .closeBracket (OfKind .comma) (elements.map .expr) parts) :
      Production (.expr (.array elements span)) parts
  | object {properties : List Property} {parts : List Constituent} {span : Span}
      (h : Enclosed .openCurly .closeCurly (OfKind .comma) (properties.map .property) parts) :
      Production (.expr (.object properties span)) parts
  | functionExpr {word : Token} {name? : Option Identifier} {parameters : List Parameter}
      {body : Block} {name inner : List Constituent} {span : Span}
      (hword : Starts .function word) (hname : Named name? name)
      (hparameters : Parameters parameters inner) :
      Production (.expr (.function name? parameters body false span))
        (.token word :: (name ++ inner ++ [Constituent.node (.block body)]))
  | method {parameters : List Parameter} {body : Block} {inner : List Constituent} {span : Span}
      (hparameters : Parameters parameters inner) :
      Production (.expr (.function none parameters body false span))
        (inner ++ [Constituent.node (.block body)])
  | arrow {parameters : List Parameter} {token : Token} {body : Block}
      {inner : List Constituent} {last : Constituent} {span : Span}
      (hparameters : Parameters parameters inner) (hkind : token.kind = .arrow)
      (hbody : ArrowBody body last) :
      Production (.expr (.function none parameters body true span))
        (inner ++ [Constituent.token token, last])
  | nameArrow {parameter : Parameter} {token : Token} {body : Block} {last : Constituent}
      {span : Span} (hkind : token.kind = .arrow) (hbody : ArrowBody body last) :
      Production (.expr (.function none [parameter] body true span))
        [.bare (.parameter parameter), .token token, last]
  | classExpr {word : Token} {name? : Option Identifier} {superclass? : Option Expr}
      {members : List Member} {name tail : List Constituent} {span : Span}
      (hword : Starts .classDef word) (hname : Named name? name)
      (htail : ClassTail superclass? members tail) :
      Production (.expr (.classDef name? superclass? members span))
        (.token word :: (name ++ tail))
  | group {expr : Expr} {parts : List Constituent} (h : Condition expr parts) :
      Production (.expr expr) parts
  | spread {dots : Token} {argument : Expr} {span : Span} (hdots : dots.kind = .ellipsis) :
      Production (.expr (.spread argument span)) [.token dots, .node (.expr argument)]
  | unary {operator : Token} {operand : Expr} {span : Span} (hoperator : Starts .unary operator) :
      Production (.expr (.unary operator operand span)) [.token operator, .node (.expr operand)]
  | leadingUpdate {operator : Token} {operand : Expr} {span : Span}
      (hoperator : Starts .update operator) :
      Production (.expr (.update operator operand true span))
        [.token operator, .node (.expr operand)]
  | trailingUpdate {operator : Token} {operand : Expr} {span : Span}
      (hoperator : Continues .update operator) (hline : operator.newlineBefore = false) :
      Production (.expr (.update operator operand false span))
        [.node (.expr operand), .token operator]
  | binary {operator : Token} {left right : Expr} {span : Span}
      (hoperator : Continues .binary operator ∨ Continues .exponent operator) :
      Production (.expr (.binary operator left right span))
        [.node (.expr left), .token operator, .node (.expr right)]
  | assignment {operator : Token} {target value : Expr} {span : Span}
      (hoperator : Continues .assignment operator) :
      Production (.expr (.assignment operator target value span))
        [.node (.expr target), .token operator, .node (.expr value)]
  | conditional {question colon : Token} {test consequent alternate : Expr} {span : Span}
      (hquestion : question.kind = .question) (hcolon : colon.kind = .colon) :
      Production (.expr (.conditional test consequent alternate span))
        [.node (.expr test), .token question, .node (.expr consequent), .token colon,
          .node (.expr alternate)]
  | sequence {first : Expr} {comma : Token} {others : List Expr} {inner : List Constituent}
      {span : Span} (hcomma : comma.kind = .comma)
      (hothers : Separated (others.map .expr) inner) :
      Production (.expr (.sequence (first :: others) span))
        (.node (.expr first) :: .token comma :: inner)
  | call {callee : Expr} {arguments : List Expr} {inner : List Constituent} {span : Span}
      (harguments : Arguments arguments inner) :
      Production (.expr (.call callee arguments span)) (.node (.expr callee) :: inner)
  | new {word : Token} {callee : Expr} {arguments : List Expr} {inner : List Constituent}
      {span : Span} (hword : word.kind = .newWord) (harguments : Arguments arguments inner) :
      Production (.expr (.new callee arguments span))
        (.token word :: .node (.expr callee) :: inner)
  | plainNew {word : Token} {callee : Expr} {span : Span} (hword : word.kind = .newWord) :
      Production (.expr (.new callee [] span)) [.token word, .node (.expr callee)]
  | access {dot name : Token} {object : Expr} {span : Span} (hdot : dot.kind = .dot)
      (hname : name.isPropertyName = true) :
      Production (.expr (.member object name.text span))
        [.node (.expr object), .token dot, .token name]
  | index {opening closing : Token} {object index : Expr} {span : Span}
      (hopening : opening.kind = .openBracket) (hclosing : closing.kind = .closeBracket) :
      Production (.expr (.index object index span))
        [.node (.expr object), .token opening, .node (.expr index), .token closing]
  -- Properties of objects and members of classes.
  | valueProperty {key colon : Token} {value : Expr} (hcolon : colon.kind = .colon) :
      Production (.property ⟨key.text, value⟩) [.token key, .token colon, .node (.expr value)]
  | methodProperty {key opening : Token} {value : Expr} (hopening : opening.kind = .openParen) :
      Production (.property ⟨key.text, value⟩) [.token key, .ahead opening, .node (.expr value)]
  | nameProperty {key : Token} {id : NodeId} :
      Production (.property ⟨key.text, .symbol ⟨key.text, id⟩ key.span⟩)
        [.node (.expr (.symbol ⟨key.text, id⟩ key.span))]
  | spreadProperty {value : Expr} :
      Production (.property ⟨"...", value⟩) [.node (.expr value)]
  | member {key : Token} {value? : Option Expr} {isStatic isAccessor : Bool}
      {static accessor value : List Constituent} {span : Span}
      (hstatic : Marked (Modifier ["static"]) isStatic static)
      (haccessor : Marked (Modifier ["get", "set"]) isAccessor accessor)
      (hkey : key.isMemberName = true) (hvalue : MemberValue value? value) :
      Production (.member ⟨key.text, isStatic, value?, span⟩)
        (static ++ accessor ++ [Constituent.token key] ++ value)
  -- Bindings.
  | parameter {target : Target} {default? : Option Expr} {rest : Bool}
      {dots default : List Constituent} {span : Span} (hdots : Marked (OfKind .ellipsis) rest dots)
      (hdefault : Introduced .assignment .expr default? default) :
      Production (.parameter ⟨target, default?, rest, span⟩)
        (dots ++ [Constituent.node (.target target)] ++ default)
  | name {token : Token} {id : NodeId} (hkind : token.kind = .identifier) :
      Production (.target (.name ⟨token.text, id⟩)) [.token token]
  | pattern {opening closing : Token} {elements : List PatternElement}
      {nestedDefaults : List Expr} {inner : List Constituent}
      (hopening : opening.kind = .openCurly ∧ closing.kind = .closeCurly ∨
        opening.kind = .openBracket ∧ closing.kind = .closeBracket)
      (hinner : Scattered elements nestedDefaults inner) :
      Production (.target (.pattern elements nestedDefaults))
        (.token opening :: (inner ++ [Constituent.token closing]))
  | element {token : Token} {id : NodeId} {default? : Option Expr} {default : List Constituent}
      (hkind : token.kind = .identifier)
      (hdefault : Introduced .assignment .expr default? default) :
      Production (.element ⟨⟨token.text, id⟩, default?, token.span⟩) (.token token :: default)
  | declarator {target : Target} {value? : Option Expr} {value : List Constituent} {span : Span}
      (hvalue : Introduced .assignment .expr value? value) :
      Production (.declarator ⟨target, value?, span⟩) (.node (.target target) :: value)
  | binding {token : Token} {id : NodeId} (hkind : token.kind = .identifier) :
      Production (.binding ⟨⟨token.text, id⟩, token.span⟩) [.token token]
  -- Statements and what they are made of.
  | block {opening closing : Token} {id : NodeId} {body : List Stmt} {span : Span}
      (hopening : opening.kind = .openCurly) (hclosing : closing.kind = .closeCurly) :
      Production (.block ⟨id, body, span⟩)
        (.token opening :: (stmts body ++ [Constituent.token closing]))
  | expression {value : Expr} {ending : List Constituent} (hending : Terminator ending) :
      Production (.stmt (expressionStmt value)) (.node (.expr value) :: ending)
  | blockStmt {block : Block} : Production (.stmt (.block block)) [.node (.block block)]
  | varDeclaration {word : Token} {declarators : List Declarator}
      {inner ending : List Constituent} {span : Span} (hword : OpensStmt .varDeclaration word)
      (hinner : Separated (declarators.map .declarator) inner) (hending : Terminator ending) :
      Production (.stmt (.varDeclaration (declarationKind word) declarators span))
        (.token word :: (inner ++ ending))
  | conditionalStmt {word : Token} {condition : Expr} {consequent : Stmt}
      {alternate? : Option Stmt} {test alternate : List Constituent} {span : Span}
      (hword : OpensStmt .conditional word) (htest : Condition condition test)
      (halternate : Introduced .elseWord .stmt alternate? alternate) :
      Production (.stmt (.conditional condition consequent alternate? span))
        (.token word :: (test ++ Constituent.node (.stmt consequent) :: alternate))
  | whileLoop {word : Token} {condition : Expr} {body : Stmt} {test : List Constituent}
      {span : Span} (hword : OpensStmt .whileLoop word) (htest : Condition condition test) :
      Production (.stmt (.whileLoop condition body span))
        (.token word :: (test ++ [Constituent.node (.stmt body)]))
  | doWhile {first word : Token} {body : Stmt} {condition : Expr} {present : Bool}
      {test semicolon : List Constituent} {span : Span} (hfirst : OpensStmt .doWhile first)
      (hword : word.kind = .whileWord) (htest : Condition condition test)
      (hsemicolon : Marked (OfKind .semicolon) present semicolon) :
      Production (.stmt (.doWhile body condition span))
        (.token first :: .node (.stmt body) :: .token word :: (test ++ semicolon))
  | forLoop {word opening first second closing : Token} {init? : Option Stmt}
      {condition? update? : Option Expr} {body : Stmt} {id : NodeId} {span : Span}
      (hword : OpensStmt .forLoop word) (hopening : opening.kind = .openParen)
      (hfirst : first.kind = .semicolon) (hsecond : second.kind = .semicolon)
      (hclosing : closing.kind = .closeParen) :
      Production (.stmt (.forLoop init? condition? update? body id span))
        (.token word :: .token opening ::
          (init?.toList.map (fun init => Constituent.bare (.stmt init)) ++
            Constituent.token first :: (exprs condition?.toList ++
              Constituent.token second :: (exprs update?.toList ++
                [Constituent.token closing, .node (.stmt body)]))))
  | forEach {word opening subjectWord closing : Token} {kind? : Option DeclarationKind}
      {target : Target} {subject : Expr} {body : Stmt} {id : NodeId}
      {declaration : List Constituent} {span : Span} (hword : OpensStmt .forLoop word)
      (hopening : opening.kind = .openParen) (hdeclaration : LoopDeclaration kind? declaration)
      (hclosing : closing.kind = .closeParen) :
      Production (.stmt (.forEach kind? target (subjectWord.kind != .inWord) subject body id span))
        (.token word :: .token opening :: (declaration ++
          [Constituent.node (.target target), .token subjectWord, .node (.expr subject),
            .token closing, .node (.stmt body)]))
  | function {word name : Token} {id : NodeId} {parameters : List Parameter} {body : Block}
      {inner : List Constituent} {span : Span} (hword : OpensStmt .function word)
      (hname : name.kind = .identifier) (hparameters : Parameters parameters inner) :
      Production (.stmt (.function ⟨name.text, id⟩ parameters body span))
        (.token word :: .token name :: (inner ++ [Constituent.node (.block body)]))
  | plainResult {word : Token} {ending : List Constituent} {span : Span}
      (hword : OpensStmt .result word) (hending : Terminator ending) :
      Production (.stmt (.result none span)) (.token word :: ending)
  | result {word first : Token} {value : Expr} {ending : List Constituent} {span : Span}
      (hword : OpensStmt .result word) (hline : first.newlineBefore = false)
      (hending : Terminator ending) :
      Production (.stmt (.result (some value) span))
        (.token word :: .ahead first :: .node (.expr value) :: ending)
  | imports {word : Token} {bindings : List ImportBinding} {source : String}
      {inner ending : List Constituent} {span : Span} (hword : OpensStmt .imports word)
      (hinner : Listed (fun _ => True) (bindings.map .binding) inner)
      (hending : Terminator ending) :
      Production (.stmt (.imports bindings source span)) (.token word :: (inner ++ ending))
  | exports {word : Token} {declaration : Stmt} {isDefault : Bool} {default : List Constituent}
      {span : Span} (hword : OpensStmt .exports word)
      (hdefault : Marked (Token.isWord "default" · = true) isDefault default) :
      Production (.stmt (.exports declaration span))
        (.token word :: (default ++ [Constituent.node (.stmt declaration)]))
  | exportList {opening : Token} {inner ending : List Constituent} {span : Span}
      (hopening : opening.kind = .openCurly ∨ opening.kind = .star)
      (hinner : Listed (fun _ => True) [] inner) (hending : Terminator ending) :
      Production (.stmt (.empty span)) (.token opening :: (inner ++ ending))
  | leave {word : Token} {labeled : Bool} {label ending : List Constituent}
      (hword : OpensStmt .leave word) (hlabel : Marked JumpLabel labeled label)
      (hending : Terminator ending) :
      Production (.stmt (.leave word.span)) (.token word :: (label ++ ending))
  | skip {word : Token} {labeled : Bool} {label ending : List Constituent}
      (hword : OpensStmt .skip word) (hlabel : Marked JumpLabel labeled label)
      (hending : Terminator ending) :
      Production (.stmt (.skip word.span)) (.token word :: (label ++ ending))
  | empty {token : Token} (hkind : token.kind = .semicolon) :
      Production (.stmt (.empty token.span)) [.token token]
  | guarded {word : Token} {block : Block} {handler? : Option CatchClause}
      {finalizer? : Option Block} {finalizer : List Constituent} {span : Span}
      (hword : OpensStmt .guarded word)
      (hfinalizer : Introduced .finallyWord .block finalizer? finalizer) :
      Production (.stmt (.guarded block handler? finalizer? span))
        (.token word :: .node (.block block) ::
          (handler?.toList.map (fun handler => Constituent.node (.handler handler)) ++ finalizer))
  | handler {word opening closing : Token} {parameter : Target} {body : Block} {span : Span}
      (hword : word.kind = .catchWord) (hopening : opening.kind = .openParen)
      (hclosing : closing.kind = .closeParen) :
      Production (.handler ⟨some parameter, body, span⟩)
        [.token word, .token opening, .node (.target parameter), .token closing,
          .node (.block body)]
  | plainHandler {word : Token} {body : Block} {span : Span} (hword : word.kind = .catchWord) :
      Production (.handler ⟨none, body, span⟩) [.token word, .node (.block body)]
  | raise {word : Token} {value : Expr} {ending : List Constituent} {span : Span}
      (hword : OpensStmt .raise word) (hending : Terminator ending) :
      Production (.stmt (.raise value span)) (.token word :: .node (.expr value) :: ending)
  | switch {word opening closing : Token} {subject : Expr} {clauses : List SwitchClause}
      {test : List Constituent} {span : Span} (hword : OpensStmt .switch word)
      (htest : Condition subject test) (hopening : opening.kind = .openCurly)
      (hclosing : closing.kind = .closeCurly) :
      Production (.stmt (.switch subject clauses span))
        (.token word :: (test ++ Constituent.token opening ::
          (clauses.map (fun clause => Constituent.node (.clause clause)) ++
            [Constituent.token closing])))
  | clause {colon : Token} {test? : Option Expr} {body : List Stmt} {head : List Constituent}
      {span : Span} (hhead : ClauseHead test? head) (hcolon : colon.kind = .colon) :
      Production (.clause ⟨test?, body, span⟩) (head ++ Constituent.token colon :: stmts body)
  | labeled {label colon : Token} {body : Stmt} {span : Span}
      (hlabel : label.kind = .identifier) (hcolon : colon.kind = .colon) :
      Production (.stmt (.labeled label.text body span))
        [.token label, .token colon, .node (.stmt body)]
  | classStmt {word name : Token} {id : NodeId} {superclass? : Option Expr}
      {members : List Member} {tail : List Constituent} {span : Span}
      (hword : OpensStmt .classDef word) (hname : name.kind = .identifier)
      (htail : ClassTail superclass? members tail) :
      Production (.stmt (.classDef ⟨name.text, id⟩ superclass? members span))
        (.token word :: .token name :: tail)

end ScriptKinds.Grammar
