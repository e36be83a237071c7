import ScriptKinds.Proofs.Tree.Node

namespace ScriptKinds

/-- The span is not empty and lies between two byte offsets. -/
structure Span.Fits (lo hi : Nat) (span : Span) : Prop where
  lower : lo ≤ span.start
  solid : span.start < span.stop
  upper : span.stop ≤ hi

theorem Span.Fits.mono {lo hi lower upper : Nat} {span : Span} (h : span.Fits lo hi)
    (hlower : lower ≤ lo) (hupper : hi ≤ upper) : span.Fits lower upper :=
  ⟨Nat.le_trans hlower h.lower, h.solid, Nat.le_trans h.upper hupper⟩

namespace Node

/-- The part of the source that an expression, a statement or a block covers. -/
def span? : Node → Option Span
  | expr inner => some inner.span
  | stmt inner => some inner.span
  | block inner => some inner.span
  | _ => none

/-- Fits lo hi node: the parts that the node and the nodes inside it cover lie in
one another, and all of them lie between the two byte offsets. -/
inductive Fits : Nat → Nat → Node → Prop
  | spanned {lo hi : Nat} {node : Node} {span : Span} (hspan : node.span? = some span)
      (hfits : span.Fits lo hi)
      (hchildren : ∀ child ∈ node.children, Fits span.start span.stop child) : Fits lo hi node
  | plain {lo hi : Nat} {node : Node} (hspan : node.span? = none)
      (hchildren : ∀ child ∈ node.children, Fits lo hi child) : Fits lo hi node

namespace Fits

variable {lo hi : Nat} {node : Node}

theorem mono {lower upper : Nat} (h : node.Fits lo hi) (hlower : lower ≤ lo) (hupper : hi ≤ upper) :
    node.Fits lower upper := by
  induction h with
  | spanned hspan hfits hchildren _ => exact .spanned hspan (hfits.mono hlower hupper) hchildren
  | plain hspan _ ih => exact .plain hspan fun child hchild => ih child hchild hlower hupper

theorem span_fits {span : Span} (h : node.Fits lo hi) (hspan : node.span? = some span) :
    span.Fits lo hi := by
  cases h with
  | spanned hspan' hfits _ =>
      rw [hspan] at hspan'
      cases hspan'
      exact hfits
  | plain hspan' _ =>
      rw [hspan] at hspan'
      cases hspan'

theorem tight {span : Span} (h : node.Fits lo hi) (hspan : node.span? = some span) :
    node.Fits span.start span.stop := by
  have hfits := h.span_fits hspan
  cases h with
  | spanned hspan' _ hchildren =>
      rw [hspan] at hspan'
      cases hspan'
      exact .spanned hspan ⟨Nat.le_refl _, hfits.solid, Nat.le_refl _⟩ hchildren
  | plain hspan' _ =>
      rw [hspan] at hspan'
      cases hspan'

theorem child {child : Node} (h : node.Fits lo hi) (hchild : child ∈ node.children) :
    child.Fits lo hi := by
  cases h with
  | spanned _ hfits hchildren => exact (hchildren child hchild).mono hfits.lower hfits.upper
  | plain _ hchildren => exact hchildren child hchild

theorem inside {inner : Node} (hinside : Inside inner node) (h : node.Fits lo hi) :
    inner.Fits lo hi := by
  induction hinside with
  | self => exact h
  | deeper hchild _ ih => exact ih (h.child hchild)

end Fits

/-- A node that lies in another one and is not that one. -/
def Below (inner outer : Node) : Prop :=
  ∃ child ∈ outer.children, Inside inner child

theorem Fits.nested {lo hi : Nat} {inner outer : Node} {span outerSpan : Span}
    (h : outer.Fits lo hi) (hbelow : Below inner outer) (hspan : inner.span? = some span)
    (houter : outer.span? = some outerSpan) : span.Fits outerSpan.start outerSpan.stop := by
  obtain ⟨child, hchild, hinside⟩ := hbelow
  exact (((h.tight houter).child hchild).inside hinside).span_fits hspan

end Node

end ScriptKinds
