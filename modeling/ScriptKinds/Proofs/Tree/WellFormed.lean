import ScriptKinds.Grammar.Table
import ScriptKinds.Inference.Operator
import ScriptKinds.Proofs.Tree.Node

namespace ScriptKinds

/-- The expressions that can be assigned to. -/
inductive Expr.IsReference : Expr → Prop where
  | symbol (name : Identifier) (span : Span) : IsReference (.symbol name span)
  | member (owner : Expr) (name : String) (span : Span) : IsReference (.member owner name span)
  | index (owner key : Expr) (span : Span) : IsReference (.index owner key span)

theorem Expr.isReference_of_isAssignable {target : Expr} (h : target.isAssignable = true) :
    target.IsReference := by
  cases target with
  | symbol name span => exact .symbol name span
  | member owner name span => exact .member owner name span
  | index owner key span => exact .index owner key span
  | _ => cases h

/-- A plain assignment, or one that an operator goes with. -/
def IsAssigning (kind : TokenKind) : Prop :=
  kind = .assignment ∨ (compoundOperator? kind).isSome = true

/-- A kind of token that continues an expression as one of the binary forms. -/
def IsBinary (kind : TokenKind) : Prop :=
  ∃ form power, Grammar.script.trailing? kind = some (form, power) ∧
    (form = .binary ∨ form = .exponent)

theorem isAssigning_of_trailing {kind : TokenKind} {power : Power}
    (h : Grammar.script.trailing? kind = some (.assignment, power)) : IsAssigning kind := by
  suffices hall : ∀ kind ∈ TokenKind.all,
      (Grammar.script.trailing? kind).map Prod.fst = some .assignment →
        kind = .assignment ∨ (compoundOperator? kind).isSome = true from
    hall kind kind.mem_all (congrArg (Option.map Prod.fst) h)
  decide

/-- What the form of an expression demands of its parts. -/
def Expr.Shaped : Expr → Prop
  | .function name? _ _ arrow _ => arrow = true → name? = none
  | .binary operator _ _ _ => IsBinary operator.kind
  | .update _ operand _ _ => operand.IsReference
  | .assignment operator target _ _ => target.IsReference ∧ IsAssigning operator.kind
  | .template texts substitutions _ => texts.length = substitutions.length + 1
  | .sequence operands _ => 2 ≤ operands.length
  | _ => True

/-- A constant and a pattern have a value. -/
def Declarator.Shaped (kind : DeclarationKind) (declarator : Declarator) : Prop :=
  declarator.value? = none → kind ≠ .const ∧ ∃ name, declarator.target = .name name

/-- What the form of a statement demands of its parts. -/
def Stmt.Shaped : Stmt → Prop
  | .varDeclaration kind declarators _ =>
      declarators ≠ [] ∧ ∀ declarator ∈ declarators, declarator.Shaped kind
  | .forEach kind? target _ _ _ _ _ => kind? = none → ∃ name, target = .name name
  | .guarded _ handler? finalizer? _ => handler? ≠ none ∨ finalizer? ≠ none
  | _ => True

namespace Node

/-- A node has a shape that its kind allows. -/
def Shaped : Node → Prop
  | expr inner => inner.Shaped
  | stmt inner => inner.Shaped
  | _ => True

/-- All nodes that lie in a node have the shape that their form demands. -/
def WellFormed (node : Node) : Prop :=
  ∀ inner, Inside inner node → inner.Shaped

theorem WellFormed.intro {node : Node} (hshaped : node.Shaped)
    (hchildren : ∀ child ∈ node.children, child.WellFormed) : node.WellFormed := by
  rintro inner (_ | ⟨hchild, hinside⟩)
  · exact hshaped
  · exact hchildren _ hchild inner hinside

end Node

end ScriptKinds
