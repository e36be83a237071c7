import ScriptKinds.Proofs.Grammar.Restriction
import ScriptKinds.Syntax.Copy

namespace ScriptKinds

section Lists

theorem eq_map_of_cons {α : Type} {f : α → α} {all : List α → List α} (hnil : all [] = [])
    (hcons : ∀ first others, all (first :: others) = f first :: all others) (values : List α) :
    all values = values.map f := by
  induction values with
  | nil => exact hnil
  | cons first others ih => rw [hcons, ih, List.map_cons]

theorem map_eq_self_iff {α : Type} {f : α → α} {values : List α} :
    values.map f = values ↔ ∀ value ∈ values, f value = value := by
  conv_lhs => rw [← List.map_id values, List.map_map]
  exact List.map_eq_map_iff

theorem option_map_eq_self_iff {α : Type} {f : α → α} {value? : Option α} :
    value?.map f = value? ↔ ∀ value, value? = some value → f value = value := by
  cases value? <;> simp

variable (exprs : List Expr) (properties : List Property) (elements : List PatternElement)
  (parameters : List Parameter) (members : List Member) (declarators : List Declarator)
  (clauses : List SwitchClause) (stmts : List Stmt)

theorem copyExprs_eq_map : copyExprs exprs = exprs.map Expr.copy :=
  eq_map_of_cons rfl (fun _ _ => rfl) exprs

theorem copyProperties_eq_map : copyProperties properties = properties.map Property.copy :=
  eq_map_of_cons rfl (fun _ _ => rfl) properties

theorem copyElements_eq_map : copyElements elements = elements.map PatternElement.copy :=
  eq_map_of_cons rfl (fun _ _ => rfl) elements

theorem copyParameters_eq_map : copyParameters parameters = parameters.map Parameter.copy :=
  eq_map_of_cons rfl (fun _ _ => rfl) parameters

theorem copyMembers_eq_map : copyMembers members = members.map Member.copy :=
  eq_map_of_cons rfl (fun _ _ => rfl) members

theorem copyDeclarators_eq_map :
    copyDeclarators declarators = declarators.map Declarator.copy :=
  eq_map_of_cons rfl (fun _ _ => rfl) declarators

theorem copyClauses_eq_map : copyClauses clauses = clauses.map SwitchClause.copy :=
  eq_map_of_cons rfl (fun _ _ => rfl) clauses

theorem copyStmts_eq_map : copyStmts stmts = stmts.map Stmt.copy :=
  eq_map_of_cons rfl (fun _ _ => rfl) stmts

variable (expr? : Option Expr) (target? : Option Target) (block? : Option Block)
  (handler? : Option CatchClause) (stmt? : Option Stmt)

theorem copyExpr?_eq_map : copyExpr? expr? = expr?.map Expr.copy := by
  cases expr? <;> rfl

theorem copyTarget?_eq_map : copyTarget? target? = target?.map Target.copy := by
  cases target? <;> rfl

theorem copyBlock?_eq_map : copyBlock? block? = block?.map Block.copy := by
  cases block? <;> rfl

theorem copyHandler?_eq_map : copyHandler? handler? = handler?.map CatchClause.copy := by
  cases handler? <;> rfl

theorem copyStmt?_eq_map : copyStmt? stmt? = stmt?.map Stmt.copy := by
  cases stmt? <;> rfl

end Lists

namespace Node

def copy : Node → Node
  | expr inner => .expr inner.copy
  | property inner => .property inner.copy
  | parameter inner => .parameter inner.copy
  | target inner => .target inner.copy
  | element inner => .element inner.copy
  | member inner => .member inner.copy
  | stmt inner => .stmt inner.copy
  | block inner => .block inner.copy
  | binding inner => .binding inner
  | declarator inner => .declarator inner.copy
  | handler inner => .handler inner.copy
  | clause inner => .clause inner.copy

/-- Whether a statement that consists of an expression has the span of that. -/
def SpansExpression : Node → Prop
  | stmt (.expression value span) => value.span = span
  | _ => True

theorem copy_eq_iff_of_children {node : Node} :
    node.copy = node ↔ (∀ child ∈ node.children, child.copy = child) ∧ node.SpansExpression := by
  cases node with
  | expr inner =>
      cases inner <;>
        simp [copy, Expr.copy, SpansExpression, children, Expr.children, copyExprs_eq_map,
          copyProperties_eq_map, copyParameters_eq_map, copyMembers_eq_map, copyExpr?_eq_map,
          map_eq_self_iff, option_map_eq_self_iff, or_imp, forall_and]
  | stmt inner =>
      cases inner <;>
        simp [copy, Stmt.copy, SpansExpression, children, Stmt.children, copyDeclarators_eq_map,
          copyParameters_eq_map, copyMembers_eq_map, copyClauses_eq_map, copyExpr?_eq_map,
          copyStmt?_eq_map, copyBlock?_eq_map, copyHandler?_eq_map,
          map_eq_self_iff, option_map_eq_self_iff, or_imp, forall_and]
  | target inner =>
      cases inner <;>
        simp [copy, Target.copy, SpansExpression, children, Target.children, copyElements_eq_map,
          copyExprs_eq_map, map_eq_self_iff, or_imp, forall_and]
  | property inner | parameter inner | element inner | member inner | block inner | binding inner
  | declarator inner | handler inner | clause inner =>
      cases inner
      simp [copy, Property.copy, Parameter.copy, PatternElement.copy, Member.copy, Block.copy,
        Declarator.copy, CatchClause.copy, SwitchClause.copy, SpansExpression, children,
        copyStmts_eq_map, copyExpr?_eq_map, copyTarget?_eq_map, map_eq_self_iff,
        option_map_eq_self_iff, or_imp, forall_and]

/-- A copy equals the original exactly if the spans that are rebuilt are right at every
depth. -/
theorem copy_eq_iff {node : Node} :
    node.copy = node ↔ ∀ inner, Inside inner node → inner.SpansExpression := by
  constructor
  · intro hcopy inner hinside
    induction hinside with
    | self => exact (copy_eq_iff_of_children.mp hcopy).2
    | deeper hchild _ ih => exact ih ((copy_eq_iff_of_children.mp hcopy).1 _ hchild)
  · intro hspans
    refine copy_eq_iff_of_children.mpr ⟨fun child hchild => ?_, hspans node (.self node)⟩
    exact copy_eq_iff.mpr fun inner hinside => hspans inner (.deeper hchild hinside)
termination_by sizeOf node
decreasing_by exact sizeOf_child hchild

end Node

namespace Grammar

variable {parts : List Constituent} {node : Node}

theorem Production.spansExpression (h : Production node parts) : node.SpansExpression := by
  cases h with
  | expression => rfl
  | _ => trivial

theorem BareProduction.spansExpression (h : BareProduction node parts) :
    node.SpansExpression := by
  cases h with
  | expression => rfl
  | _ => trivial

theorem Written.spansExpression {tokens : TokenStream} {keeps : Nat → Nat → Node → Prop}
    (h : Written tokens keeps node) : node.SpansExpression := by
  rcases h with ⟨first, last, hnode | hbare⟩ | ⟨name, rfl⟩
  · cases hnode with
    | node hproduction => exact hproduction.spansExpression
  · cases hbare with
    | bare hproduction => exact hproduction.spansExpression
  · trivial

end Grammar

namespace Script

open Grammar

variable {file : String} {tokens : List Token} {script : Script}

/-- In the tree of a script every statement that consists of an expression has the span
of it, so a copy of the tree equals the tree, and so it is for every node in it. -/
theorem copy_root (h : ofTokens file tokens = .ok script) :
    script.root.copy = script.root ∧
      (∀ node, Node.Inside node (.block script.root) → node.copy = node) ∧
      ∀ value span, Node.Inside (.stmt (.expression value span)) (.block script.root) →
        span = value.span := by
  obtain ⟨last, -, hderivation⟩ := derivation h
  have hspans {node : Node} (hinside : Node.Inside node (.block script.root)) :
      node.SpansExpression := by
    rcases written_of_inside hderivation hinside with rfl | hwritten
    · trivial
    · exact hwritten.spansExpression
  have hcopy {node : Node} (hinside : Node.Inside node (.block script.root)) :
      node.copy = node :=
    Node.copy_eq_iff.mpr fun inner hinner => hspans (hinner.trans hinside)
  refine ⟨?_, fun node hinside => hcopy hinside, fun value span hinside => (hspans hinside).symm⟩
  exact Node.block.inj (hcopy (.self (.block script.root)))

/-- The tokens of `export default a; for (b;;);`. -/
def loopTokens : List Token :=
  [⟨.exportWord, "export", ⟨0, 6⟩, false⟩, ⟨.identifier, "default", ⟨7, 14⟩, false⟩,
    ⟨.identifier, "a", ⟨15, 16⟩, false⟩, ⟨.semicolon, ";", ⟨16, 17⟩, false⟩,
    ⟨.forWord, "for", ⟨18, 21⟩, false⟩, ⟨.openParen, "(", ⟨22, 23⟩, false⟩,
    ⟨.identifier, "b", ⟨23, 24⟩, false⟩, ⟨.semicolon, ";", ⟨24, 25⟩, false⟩,
    ⟨.semicolon, ";", ⟨25, 26⟩, false⟩, ⟨.closeParen, ")", ⟨26, 27⟩, false⟩,
    ⟨.semicolon, ";", ⟨27, 28⟩, false⟩]

/-- Both `export default` and the head of a loop make a statement of an expression. -/
theorem copy_root_of_loop :
    ∃ script, ofTokens "loop.js" loopTokens = .ok script ∧
      script.root.copy = script.root ∧
      (∀ node, Node.Inside node (.block script.root) → node.copy = node) ∧
      ∀ value span, Node.Inside (.stmt (.expression value span)) (.block script.root) →
        span = value.span := by
  have hread : (ofTokens "loop.js" loopTokens).toOption.isSome = true := by decide +kernel
  cases hscript : ofTokens "loop.js" loopTokens with
  | error failure =>
      rw [hscript] at hread
      cases hread
  | ok script => exact ⟨script, rfl, copy_root hscript⟩

end Script

end ScriptKinds
