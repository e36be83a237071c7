import Mathlib.Logic.Relation
import ScriptKinds.Proofs.Inference.Stability

namespace ScriptKinds

namespace Expr

/-- A plain assignment has the value of what is assigned, and a sequence that of its
last operand. -/
inductive Forwards : Expr → Expr → Prop where
  | assignment {operator : Token} {target value : Expr} {span : Span}
      (h : operator.kind = .assignment) : Forwards (.assignment operator target value span) value
  | sequence {operands : List Expr} {last : Expr} {span : Span}
      (h : operands.getLast? = some last) : Forwards (.sequence operands span) last

theorem Forwards.rightUnique : Relator.RightUnique Forwards := by
  intro expr next other h h'
  cases h with
  | assignment h =>
      cases h'
      rfl
  | sequence h =>
      cases h' with
      | sequence h' => exact Option.some.inj (h.symm.trans h')

theorem Forwards.sizeOf_lt {expr next : Expr} (h : Forwards expr next) :
    sizeOf next < sizeOf expr := by
  cases h with
  | assignment h =>
      simp only [assignment.sizeOf_spec]
      omega
  | sequence h =>
      have hlast := List.sizeOf_lt_of_mem (List.mem_of_getLast? h)
      simp only [sequence.sizeOf_spec]
      omega

/-- The part of an expression whose value is that of the whole and comes from no
part of its own. -/
structure ValuePosition (expr place : Expr) : Prop where
  reached : Relation.ReflTransGen Forwards expr place
  final : ∀ next, ¬ Forwards place next

theorem exists_valuePosition (expr : Expr) : ∃ place, ValuePosition expr place := by
  by_cases h : ∃ next, Forwards expr next
  · obtain ⟨next, hnext⟩ := h
    obtain ⟨place, hreached, hfinal⟩ := exists_valuePosition next
    exact ⟨place, .head hnext hreached, hfinal⟩
  · exact ⟨expr, .refl, not_exists.mp h⟩
termination_by sizeOf expr
decreasing_by exact hnext.sizeOf_lt

theorem eq_of_reached {place next : Expr} (h : Relation.ReflTransGen Forwards place next)
    (hfinal : ∀ next, ¬ Forwards place next) : place = next := by
  rcases h.cases_head with rfl | ⟨between, hbetween, -⟩
  · rfl
  · exact absurd hbetween (hfinal between)

theorem ValuePosition.unique {expr place other : Expr} (h : ValuePosition expr place)
    (h' : ValuePosition expr other) : other = place := by
  rcases h.reached.total_of_right_unique Forwards.rightUnique h'.reached with hnext | hnext
  · exact (eq_of_reached hnext h.final).symm
  · exact eq_of_reached hnext h'.final

/-- The forms of expressions that a rule of classification is about. -/
def isClassified : Expr → Bool
  | .number _ _ | .string _ _ _ | .boolean _ _ | .null _ | .template _ _ _ => true
  | .array _ _ | .object _ _ | .function _ _ _ _ _ | .classDef _ _ _ _ | .regex _ _ _ => true
  | .binary _ _ _ _ | .unary _ _ _ | .new _ _ _ => true
  | .assignment _ _ _ _ | .sequence _ _ | .symbol _ _ => true
  | _ => false

end Expr

theorem classifyLast_eq (model : Model) {operands : List Expr} {last : Expr}
    (h : operands.getLast? = some last) : classifyLast model operands = classify model last := by
  match operands with
  | [] => cases h
  | [only] =>
      rw [← Option.some.inj h, classifyLast]
      rfl
  | _ :: next :: others =>
      rw [classifyLast]
      exact classifyLast_eq model (List.getLast?_cons_cons.symm.trans h)

theorem Expr.Forwards.classify_eq {expr next : Expr} (h : Expr.Forwards expr next) (model : Model) :
    classify model expr = classify model next := by
  cases h with
  | assignment h => rw [classify, if_pos h]
  | sequence h => rw [classify, classifyLast_eq model h]

theorem Expr.ValuePosition.classify_eq {expr place : Expr} (h : expr.ValuePosition place)
    (model : Model) : classify model expr = classify model place := by
  obtain ⟨hreached, -⟩ := h
  induction hreached with
  | refl => rfl
  | tail _ hnext ih => rw [ih, hnext.classify_eq]

/-- The symbol that an expression is a name for. -/
def Model.named? (model : Model) : Expr → Option Symbol
  | .symbol name _ => model.symbolFor? name.id
  | _ => none

theorem Model.classify_of_named? {model : Model} {place : Expr} {symbol : Symbol}
    (h : model.named? place = some symbol) : classify model place = symbol.kinds := by
  cases place with
  | symbol name span =>
      rw [named?] at h
      rw [classify, kindsOf, h]
  | _ => cases h

theorem Model.exists_singleton {model : Model} {place : Expr}
    (hfinal : ∀ next, ¬ Expr.Forwards place next) (hnamed : model.named? place = none) :
    ∃ kind, classify model place = .singleton kind := by
  cases place with
  | symbol name span =>
      rw [named?] at hnamed
      rw [classify, kindsOf, hnamed]
      exact ⟨_, rfl⟩
  | assignment operator target value span =>
      have hoperator : operator.kind ≠ .assignment := fun h => hfinal value (.assignment h)
      rw [classify, if_neg hoperator]
      split
      · exact ⟨_, rfl⟩
      · exact ⟨_, rfl⟩
  | sequence operands span =>
      have hoperands : operands = [] := by
        by_contra hne
        exact hfinal _ (.sequence (List.getLast?_eq_some_getLast hne))
      rw [hoperands, classify, classifyLast]
      exact ⟨_, rfl⟩
  | _ =>
      rw [classify]
      exact ⟨_, rfl⟩

theorem classify_of_not_isClassified (model : Model) {expr : Expr}
    (h : expr.isClassified = false) : classify model expr = .singleton .unknown := by
  cases expr with
  | update _ _ _ _ | call _ _ _ | member _ _ _ | index _ _ _ | conditional _ _ _ _ | spread _ _ =>
      rw [classify]
  | _ => simp [Expr.isClassified] at h

/-- A classification is the set of a symbol, as it is, if a name for the symbol stands
where the value of the expression comes from, and otherwise has exactly one kind. -/
theorem Model.classify_at_valuePosition (model : Model) (expr : Expr) :
    ∃ place, expr.ValuePosition place ∧ (∀ other, expr.ValuePosition other → other = place) ∧
      (∀ symbol, model.named? place = some symbol → classify model expr = symbol.kinds) ∧
      (model.named? place = none → ∃! kind, (classify model expr).contains kind = true) ∧
      (classify model expr = .empty →
        ∃ symbol, model.named? place = some symbol ∧ symbol.kinds = .empty) ∧
      (expr.isClassified = false → classify model expr = .singleton .unknown) := by
  obtain ⟨place, hplace⟩ := expr.exists_valuePosition
  have hnamed : ∀ symbol, model.named? place = some symbol →
      classify model expr = symbol.kinds := by
    intro symbol hsymbol
    rw [hplace.classify_eq, classify_of_named? hsymbol]
  have hsingle (hnone : model.named? place = none) :
      ∃! kind, (classify model expr).contains kind = true := by
    obtain ⟨kind, hkind⟩ := exists_singleton hplace.final hnone
    rw [hplace.classify_eq, hkind]
    exact ⟨kind, by simp, fun other hother => by simpa [eq_comm] using hother⟩
  refine ⟨place, hplace, fun other => hplace.unique, hnamed, hsingle, fun hempty => ?_,
    classify_of_not_isClassified model⟩
  cases hsymbol : model.named? place with
  | none =>
      obtain ⟨kind, hkind, -⟩ := hsingle hsymbol
      simp [hempty] at hkind
  | some symbol => exact ⟨symbol, rfl, (hnamed symbol hsymbol).symm.trans hempty⟩

/-- The reference of one occurrence of `b`. -/
def mixedReferences : References :=
  .ofList [(2, 0)]

/-- A model of a symbol that may be a number or a string. -/
def mixedModel : Model :=
  ⟨#[⟨0, "b", .variable, 4, 0, .ofList [.number, .string]⟩], #[⟨0, .script, none, [("b", 0)]⟩],
    mixedReferences⟩

/-- The text `a = (null, b)` as a tree. -/
def handedOnExpr : Expr :=
  .assignment ⟨.assignment, "=", ⟨2, 3⟩, false⟩ (.symbol ⟨"a", 1⟩ ⟨0, 1⟩)
    (.sequence [.null ⟨5, 9⟩, .symbol ⟨"b", 2⟩ ⟨11, 12⟩] ⟨5, 12⟩) ⟨0, 13⟩

theorem classify_handedOnExpr :
    classify mixedModel handedOnExpr = .ofList [.number, .string] ∧
      ∀ kind, classify mixedModel handedOnExpr ≠ .singleton kind := by
  obtain ⟨place, -, hunique, hnamed, -⟩ :=
    Model.classify_at_valuePosition mixedModel handedOnExpr
  have hplace : handedOnExpr.ValuePosition (.symbol ⟨"b", 2⟩ ⟨11, 12⟩) :=
    ⟨.head (.assignment rfl) (.head (.sequence rfl) .refl), fun _ h => by cases h⟩
  have hresolve : mixedModel.resolve? 2 = some 0 := by
    change mixedReferences[2]? = some 0
    decide +kernel
  have hsymbol : mixedModel.named? place =
      some ⟨0, "b", .variable, 4, 0, .ofList [.number, .string]⟩ := by
    rw [← hunique _ hplace, Model.named?, Model.symbolFor?, hresolve]
    rfl
  rw [hnamed _ hsymbol]
  exact ⟨rfl, fun kind => by cases kind <;> decide⟩

end ScriptKinds
