import ScriptKinds.Proofs.Tree.Node
import ScriptKinds.Token.Stream

/-!
Which stretches of tokens spell which nodes.

A node is spelled by its children, one behind the other, and by the tokens that
tell where it begins.  Other tokens of the stretch are left out, so a stretch
that spells something still spells it when it grows.
-/

namespace ScriptKinds

theorem TokenStream.lt_size {tokens : TokenStream} (hends : tokens.last.kind = .endOfInput)
    {place : Nat} (hkind : (tokens.get place).kind ≠ .endOfInput) : place < tokens.body.size := by
  apply Nat.lt_of_not_le
  intro hle
  apply hkind
  rw [TokenStream.get, Array.getElem?_eq_none hle, Option.getD_none, hends]

/-- One of the things that a stretch of tokens spells. -/
inductive Item where
  /-- A token that has been looked at, but not passed. -/
  | ahead (token : Token)
  | token (token : Token)
  | node (node : Node)

namespace Item

/-- The name in a pattern that an item is. -/
def element? : Item → Option PatternElement
  | node (.element entry) => some entry
  | _ => none

/-- The expression that an item is. -/
def expr? : Item → Option Expr
  | node (.expr expr) => some expr
  | _ => none

theorem eq_of_element? {item : Item} {entry : PatternElement} (h : item.element? = some entry) :
    item = node (.element entry) := by
  unfold element? at h
  split at h <;> cases h
  rfl

theorem eq_of_expr? {item : Item} {expr : Expr} (h : item.expr? = some expr) :
    item = node (.expr expr) := by
  unfold expr? at h
  split at h <;> cases h
  rfl

end Item

namespace Node

/-- The one token at the start of a span. -/
def LedByWord (span : Span) (leads : List Item) : Prop :=
  ∃ word, leads = [.token word] ∧ word.kind ≠ .endOfInput ∧ word.span.start = span.start

/-- The token at the start of a span, which may be that of a child. -/
def LedByAhead (span : Span) (leads : List Item) : Prop :=
  ∃ token, leads = [.ahead token] ∧ token.span.start = span.start

def ExprLed : Expr → List Item → Prop
  | .symbol _ span | .function (some _) _ _ _ span | .classDef (some _) _ _ span => LedByWord span
  | _ => (· = [])

def StmtLed : Stmt → List Item → Prop
  | .function _ _ _ span | .classDef _ _ _ span | .forEach _ _ _ _ _ _ span => LedByWord span
  | _ => (· = [])

def TargetLed : Target → List Item → Prop
  | .name _ => fun leads => ∃ word, leads = [.token word] ∧ word.kind ≠ .endOfInput
  | .pattern _ _ => (· = [])

/-- The tokens in front of the children of a node that tell where it begins. -/
def LedBy : Node → List Item → Prop
  | expr inner => ExprLed inner
  | stmt inner => StmtLed inner
  | target inner => TargetLed inner
  | element inner => LedByWord inner.span
  | binding inner => LedByWord inner.span
  | handler inner => LedByWord inner.span
  | parameter inner => LedByAhead inner.span
  | declarator inner => LedByAhead inner.span
  | property _ | member _ | block _ | clause _ => (· = [])

/-- The items of a pattern are its names and its nested defaults, in any order. -/
def TargetComposed : Target → List Item → Prop
  | .name _ => (· = [])
  | .pattern elements nestedDefaults => fun kids =>
      kids.filterMap Item.element? = elements ∧ kids.filterMap Item.expr? = nestedDefaults

/-- The children of a node in the order of the text.  Only in a pattern does
the tree not keep that order. -/
def Composed : Node → List Item → Prop
  | target inner => TargetComposed inner
  | node => (· = node.children.map .node)

end Node

/-- Spelled tokens first last items: the tokens from the place `first` up to
the place `last` spell the items, one behind the other. -/
inductive Spelled (tokens : TokenStream) : Nat → Nat → List Item → Prop
  | nil {first last : Nat} (hle : first ≤ last) : Spelled tokens first last []
  | ahead {first place last : Nat} {others : List Item} (hfirst : first ≤ place)
      (hothers : Spelled tokens place last others) :
      Spelled tokens first last (.ahead (tokens.get place) :: others)
  | token {first place next last : Nat} {others : List Item} (hfirst : first ≤ place)
      (hnext : place ≤ next) (hstrict : (tokens.get place).kind ≠ .endOfInput → place < next)
      (hothers : Spelled tokens next last others) :
      Spelled tokens first last (.token (tokens.get place) :: others)
  | node {first next last : Nat} {node : Node} {leads kids others : List Item}
      (hled : node.LedBy leads) (hcomposed : node.Composed kids) (hinit : node.Initialized)
      (hkids : Spelled tokens first next (leads ++ kids))
      (hothers : Spelled tokens next last others) :
      Spelled tokens first last (.node node :: others)

namespace Spelled

variable {tokens : TokenStream} {first middle last : Nat} {item : Item} {items others : List Item}
  {node : Node}

theorem le (h : Spelled tokens first last items) : first ≤ last := by
  induction h with
  | nil hle => exact hle
  | ahead hfirst _ ih => omega
  | token hfirst hnext _ _ ih => omega
  | node _ _ _ _ _ ihkids ih => omega

theorem mono {before after : Nat} (h : Spelled tokens first last items) (hbefore : before ≤ first)
    (hafter : last ≤ after) : Spelled tokens before after items := by
  induction h generalizing before after with
  | nil hle => exact .nil (by omega)
  | ahead hfirst _ ih => exact .ahead (by omega) (ih (Nat.le_refl _) hafter)
  | token hfirst hnext hstrict _ ih =>
      exact .token (by omega) hnext hstrict (ih (Nat.le_refl _) hafter)
  | node hled hcomposed hinit _ _ ihkids ih =>
      exact .node hled hcomposed hinit (ihkids hbefore (Nat.le_refl _))
        (ih (Nat.le_refl _) hafter)

theorem append (h : Spelled tokens first middle items) (h' : Spelled tokens middle last others) :
    Spelled tokens first last (items ++ others) := by
  induction h with
  | nil hle => exact h'.mono hle (Nat.le_refl _)
  | ahead hfirst _ ih => exact .ahead hfirst (ih h')
  | token hfirst hnext hstrict _ ih => exact .token hfirst hnext hstrict (ih h')
  | node hled hcomposed hinit hkids _ _ ih => exact .node hled hcomposed hinit hkids (ih h')

theorem split (h : Spelled tokens first last (items ++ others)) :
    ∃ middle, Spelled tokens first middle items ∧ Spelled tokens middle last others := by
  induction items generalizing first with
  | nil => exact ⟨first, .nil (Nat.le_refl _), h⟩
  | cons item items ih =>
      cases h with
      | ahead hfirst hrest =>
          obtain ⟨middle, hitems, hothers⟩ := ih hrest
          exact ⟨middle, .ahead hfirst hitems, hothers⟩
      | token hfirst hnext hstrict hrest =>
          obtain ⟨middle, hitems, hothers⟩ := ih hrest
          exact ⟨middle, .token hfirst hnext hstrict hitems, hothers⟩
      | node hled hcomposed hinit hkids hrest =>
          obtain ⟨middle, hitems, hothers⟩ := ih hrest
          exact ⟨middle, .node hled hcomposed hinit hkids hitems, hothers⟩

theorem right (h : Spelled tokens first last (items ++ others)) :
    Spelled tokens first last others := by
  obtain ⟨middle, hitems, hothers⟩ := h.split
  exact hothers.mono hitems.le (Nat.le_refl _)

theorem left (h : Spelled tokens first last (items ++ others)) :
    Spelled tokens first last items := by
  obtain ⟨middle, hitems, hothers⟩ := h.split
  exact hitems.mono (Nat.le_refl _) hothers.le

theorem of_mem (h : Spelled tokens first last items) (hmem : item ∈ items) :
    Spelled tokens first last [item] := by
  obtain ⟨before, after, rfl⟩ := List.append_of_mem hmem
  have hright : Spelled tokens first last ([item] ++ after) := h.right
  exact hright.left

theorem whole {leads kids : List Item} (h : Spelled tokens first last (leads ++ kids))
    (hled : node.LedBy leads) (hcomposed : node.Composed kids) (hinit : node.Initialized) :
    Spelled tokens first last [.node node] :=
  .node hled hcomposed hinit h (.nil (Nat.le_refl _))

theorem plain (h : Spelled tokens first last items) (hled : node.LedBy [])
    (hcomposed : node.Composed items) (hinit : node.Initialized) :
    Spelled tokens first last [.node node] :=
  .node hled hcomposed hinit h (.nil (Nat.le_refl _))

theorem parts_of_node (h : Spelled tokens first last [.node node]) :
    ∃ leads kids, node.LedBy leads ∧ node.Composed kids ∧ node.Initialized ∧
      Spelled tokens first last (leads ++ kids) := by
  cases h with
  | node hled hcomposed hinit hkids hothers =>
      exact ⟨_, _, hled, hcomposed, hinit, hkids.mono (Nat.le_refl _) hothers.le⟩

theorem mem_of_composed {kids : List Item} {child : Node} (h : node.Composed kids)
    (hchild : child ∈ node.children) : .node child ∈ kids := by
  cases node with
  | target bound =>
      cases bound with
      | name bound => cases hchild
      | pattern elements nestedDefaults =>
          obtain ⟨rfl, rfl⟩ := h
          simp only [Node.children, Target.children, List.mem_append, List.mem_map,
            List.mem_filterMap] at hchild
          rcases hchild with ⟨entry, ⟨kid, hkid, hentry⟩, rfl⟩ | ⟨expr, ⟨kid, hkid, hexpr⟩, rfl⟩
          · obtain rfl := Item.eq_of_element? hentry
            exact hkid
          · obtain rfl := Item.eq_of_expr? hexpr
            exact hkid
  | _ =>
      obtain rfl := h
      exact List.mem_map_of_mem hchild

theorem inside {inner : Node} (hinside : Node.Inside inner node)
    (h : Spelled tokens first last [.node node]) : Spelled tokens first last [.node inner] := by
  induction hinside with
  | self => exact h
  | deeper hchild _ ih =>
      obtain ⟨leads, kids, _, hcomposed, _, hkids⟩ := h.parts_of_node
      exact ih (hkids.right.of_mem (mem_of_composed hcomposed hchild))

theorem initialized {inner : Node} (h : Spelled tokens first last [.node node])
    (hinside : Node.Inside inner node) : inner.Initialized := by
  obtain ⟨_, _, _, _, hinit, _⟩ := (inside hinside h).parts_of_node
  exact hinit

end Spelled

end ScriptKinds
