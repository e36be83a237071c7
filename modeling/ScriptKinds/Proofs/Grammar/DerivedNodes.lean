import ScriptKinds.Proofs.Grammar.ScriptDerivation

namespace ScriptKinds.Grammar

open Constituent

section Lists

variable {mark : Token → Prop} {nodes : List Node} {node : Node} {parts : List Constituent}

theorem Listed.mem (h : Listed mark nodes parts) (hnode : node ∈ nodes) : .node node ∈ parts := by
  induction h with
  | nil => cases hnode
  | node _ ih => grind
  | mark _ _ ih => exact List.mem_cons_of_mem _ (ih hnode)

theorem Separated.mem (h : Separated nodes parts) (hnode : node ∈ nodes) : .node node ∈ parts := by
  induction h with
  | single => grind
  | comma _ _ ih => grind

theorem Enclosed.mem {opening closing : TokenKind} (h : Enclosed opening closing mark nodes parts)
    (hnode : node ∈ nodes) : .node node ∈ parts := by
  obtain ⟨_, hinner, _⟩ := h
  have hmem := hinner.mem hnode
  simp [hmem]

theorem Scattered.mem_element {elements : List PatternElement} {defaults : List Expr}
    {entry : PatternElement} (h : Scattered elements defaults parts) (hentry : entry ∈ elements) :
    .node (.element entry) ∈ parts := by
  induction h with
  | nil => cases hentry
  | token _ ih | nested _ ih => exact List.mem_cons_of_mem _ (ih hentry)
  | element _ ih => grind

theorem Scattered.mem_nested {elements : List PatternElement} {defaults : List Expr} {value : Expr}
    (h : Scattered elements defaults parts) (hvalue : value ∈ defaults) :
    .node (.expr value) ∈ parts := by
  induction h with
  | nil => cases hvalue
  | token _ ih | element _ ih => exact List.mem_cons_of_mem _ (ih hvalue)
  | nested _ ih => grind

theorem Introduced.mem {α : Type} {kind : TokenKind} {form : α → Node} {value? : Option α}
    {value : α} (h : Introduced kind form value? parts) (hvalue : value? = some value) :
    .node (form value) ∈ parts := by
  cases h with
  | absent => cases hvalue
  | present => simp_all

theorem Condition.mem {condition : Expr} (h : Condition condition parts) :
    .node (.expr condition) ∈ parts := by
  cases h
  simp

theorem MemberValue.mem {value? : Option Expr} {value : Expr} (h : MemberValue value? parts)
    (hvalue : value? = some value) : .node (.expr value) ∈ parts := by
  cases h with
  | method => simp_all
  | field hintroduced => exact List.mem_append_left _ (hintroduced.mem hvalue)

theorem ClauseHead.mem {test? : Option Expr} {test : Expr} (h : ClauseHead test? parts)
    (htest : test? = some test) : .node (.expr test) ∈ parts := by
  cases h with
  | case => simp_all
  | default => cases htest

theorem ClassTail.mem_superclass {superclass? : Option Expr} {members : List Member}
    {superclass : Expr} (h : ClassTail superclass? members parts)
    (hsuperclass : superclass? = some superclass) : .node (.expr superclass) ∈ parts := by
  obtain ⟨hintroduced, _⟩ := h
  exact List.mem_append_left _ (hintroduced.mem hsuperclass)

theorem ClassTail.mem_member {superclass? : Option Expr} {members : List Member} {member : Member}
    (h : ClassTail superclass? members parts) (hmember : member ∈ members) :
    .node (.member member) ∈ parts := by
  obtain ⟨_, hmembers⟩ := h
  exact List.mem_append_right _ (hmembers.mem (List.mem_map_of_mem hmember))

theorem ArrowBody.eq {body : Block} {last : Constituent} (h : ArrowBody body last) :
    last = .node (.block body) ∨ last = .bare (.block body) := by
  cases h with
  | block => exact .inl rfl
  | expr => exact .inr rfl

end Lists

/-- What a node is written as contains its children, unless it is written in
parentheses. -/
theorem Production.mem_of_child {node child : Node} {parts : List Constituent}
    (h : Production node parts) (hchild : child ∈ node.children) :
    .node child ∈ parts ∨ .bare child ∈ parts ∨ .node node ∈ parts := by
  cases h with
  | number | string | plainTemplate | boolean | null | symbol | regex | name | binding
  | exportList | leave | skip | empty | plainResult => cases hchild
  | group hparts => exact .inr (.inr hparts.mem)
  | array hparts | object hparts => exact .inl (hparts.mem hchild)
  | _ =>
      simp only [Node.children, Expr.children, Stmt.children, Target.children, expressionStmt,
        List.mem_append, List.mem_cons, List.mem_map, Option.mem_toList] at hchild
      grind [Listed.mem, Separated.mem, Enclosed.mem, Scattered.mem_element, Scattered.mem_nested,
        Introduced.mem, Condition.mem, MemberValue.mem, ClauseHead.mem, ClassTail.mem_superclass,
        ClassTail.mem_member, ArrowBody.eq]

/-- A parameter without parentheses is written as an expression, so its target
is nothing on its own. -/
theorem BareProduction.mem_of_child {node child : Node} {parts : List Constituent}
    (h : BareProduction node parts) (hchild : child ∈ node.children) :
    .node child ∈ parts ∨ .bare child ∈ parts ∨ ∃ name, child = .target (.name name) := by
  cases h with
  | declaration hword hinner => exact .inl (List.mem_cons_of_mem _ (hinner.mem hchild))
  | expression | body | result =>
      simp_all [Node.children, Stmt.children, expressionStmt]
  | parameter => exact .inr (.inr ⟨_, List.mem_singleton.mp hchild⟩)

section Inside

variable {tokens : TokenStream} {keeps : Nat → Nat → Node → Prop}

/-- A node is derived between two places, or it is the name of a parameter
without parentheses. -/
def Written (tokens : TokenStream) (keeps : Nat → Nat → Node → Prop) (node : Node) : Prop :=
  (∃ first last, Derived tokens keeps first last [.node node] ∨
    Derived tokens keeps first last [.bare node]) ∨ ∃ name, node = .target (.name name)

theorem Derived.inside {first last : Nat} {parts : List Constituent} {inner outer : Node}
    (h : Derived tokens keeps first last parts)
    (houter : .node outer ∈ parts ∨ .bare outer ∈ parts) (hinside : Node.Inside inner outer) :
    Written tokens keeps inner := by
  induction h generalizing outer with
  | nil => simp at houter
  | token _ ih | ahead _ ih => exact ih (by simpa using houter) hinside
  | @node first middle _ node parts _ hproduction hkeeps hparts _ ihparts ih =>
      simp only [List.mem_cons, Constituent.node.injEq, reduceCtorEq, false_or] at houter
      rw [or_assoc] at houter
      rcases houter with rfl | hothers
      · cases hinside with
        | self => exact .inl ⟨first, middle, .inl (.node hproduction hkeeps hparts .nil)⟩
        | deeper hchild hinside =>
            rcases hproduction.mem_of_child hchild with hnode | hbare | hgroup
            · exact ihparts (.inl hnode) hinside
            · exact ihparts (.inr hbare) hinside
            · -- Parentheses contain the same node once more.
              exact ihparts (.inl hgroup) (.deeper hchild hinside)
      · exact ih hothers hinside
  | @bare first middle _ node parts _ hproduction hparts _ ihparts ih =>
      simp only [List.mem_cons, Constituent.bare.injEq, reduceCtorEq, false_or] at houter
      rw [or_left_comm] at houter
      rcases houter with rfl | hothers
      · cases hinside with
        | self => exact .inl ⟨first, middle, .inr (.bare hproduction hparts .nil)⟩
        | deeper hchild hinside =>
            rcases hproduction.mem_of_child hchild with hnode | hbare | ⟨name, rfl⟩
            · exact ihparts (.inl hnode) hinside
            · exact ihparts (.inr hbare) hinside
            · cases hinside with
              | self => exact .inr ⟨name, rfl⟩
              | deeper hchild => cases hchild
      · exact ih hothers hinside

end Inside

end ScriptKinds.Grammar
