import ScriptKinds.Proofs.Grammar.ScriptSpelling
import ScriptKinds.Proofs.Inference.Visiting
import ScriptKinds.Proofs.Scope.Table

namespace ScriptKinds

namespace Model

/-- Whether a symbol may have a kind. -/
def Has (model : Model) (id : SymbolId) (kind : Kind) : Prop :=
  ∃ symbol, model.symbol? id = some symbol ∧ symbol.kinds.contains kind

variable {model wide : Model} {id : SymbolId} {kind : Kind} {site : WriteSite}

theorem Widens.isSome_symbol? (h : model.Widens wide) (id : SymbolId) :
    (wide.symbol? id).isSome = (model.symbol? id).isSome := by
  obtain ⟨kinds, hkinds⟩ := h.symbol id
  rw [hkinds, Option.isSome_map]

/-- What a write site contributes when it takes effect behind some others. -/
def addedBy (model : Model) (before : List WriteSite) (site : WriteSite) : KindSet :=
  (model.writeAll before).contributed site.contribution

theorem has_write (hid : (model.symbol? id).isSome) :
    (model.write site).Has id kind ↔
      model.Has id kind ∨
        model.resolve? site.target = some id ∧
          (model.contributed site.contribution).contains kind := by
  obtain ⟨symbol, hsymbol⟩ := Option.isSome_iff_exists.mp hid
  by_cases hresolve : model.resolve? site.target = some id
  · have hwritten : (model.write site).symbol? id = some
        { symbol with kinds := symbol.kinds.union (model.contributed site.contribution) } := by
      rw [symbol?] at hsymbol ⊢
      simp [write, widen, hresolve, Array.getElem?_modify, hsymbol]
    simp [Has, hwritten, hsymbol, hresolve]
  · simp [Has, symbol?_write hresolve, hresolve]

theorem exists_split_cons {α : Type} {item : α} {others : List α} {P : List α → α → Prop} :
    (∃ before found after, item :: others = before ++ found :: after ∧ P before found) ↔
      P [] item ∨
        ∃ before found after, others = before ++ found :: after ∧ P (item :: before) found := by
  constructor
  · rintro ⟨_ | ⟨head, before⟩, found, after, heq, hfound⟩
    · obtain ⟨rfl, rfl⟩ := List.cons.inj heq
      exact .inl hfound
    · obtain ⟨rfl, rfl⟩ := List.cons.inj heq
      exact .inr ⟨before, found, after, rfl, hfound⟩
  · rintro (hitem | ⟨before, found, after, rfl, hfound⟩)
    · exact ⟨[], item, others, rfl, hitem⟩
    · exact ⟨item :: before, found, after, rfl, hfound⟩

/-- A symbol has the kinds that it had and those that are contributed by the
sites that write to it. -/
theorem has_writeAll (hid : (model.symbol? id).isSome) (sites : List WriteSite) :
    (model.writeAll sites).Has id kind ↔
      model.Has id kind ∨
        ∃ before site after, sites = before ++ site :: after ∧
          model.resolve? site.target = some id ∧
            (model.addedBy before site).contains kind := by
  induction sites generalizing model with
  | nil => simp [writeAll]
  | cons site others ih =>
      have hwide := Widens.write model site
      have hid' : ((model.write site).symbol? id).isSome := by
        rwa [hwide.isSome_symbol?]
      change ((model.write site).writeAll others).Has id kind ↔ _
      rw [ih hid', has_write hid, exists_split_cons, or_assoc]
      simp only [hwide.resolve?_eq]
      rfl

section Classification

mutual

/-- Whether classifying an expression asks for the kinds of a symbol. -/
def asks (model : Model) : Expr → Bool
  | .symbol name _ => (model.symbolFor? name.id).isSome
  | .assignment operator target value _ =>
      if operator.kind = .assignment then asks model value
      else (compoundOperator? operator.kind).isSome && (asks model target || asks model value)
  | .sequence operands _ => asksLast model operands
  | .binary operator left right _ =>
      (operator.kind == .plus || isArithmetic operator.kind) &&
        (asks model left || asks model right)
  | .unary operator operand _ =>
      (operator.kind == .dash || operator.kind == .plus || operator.kind == .tilde) &&
        asks model operand
  | _ => false

/-- Whether the kinds of the last of some expressions depend on a symbol. -/
def asksLast (model : Model) : List Expr → Bool
  | [] => false
  | [last] => asks model last
  | _ :: next :: others => asksLast model (next :: others)

end

/-- Whether what a site contributes depends on the kinds of a symbol. -/
def asksFor (model : Model) : Contribution → Bool
  | .kind _ => false
  | .value value => asks model value

theorem Widens.symbolFor?_isSome (h : model.Widens wide) (node : NodeId) :
    (wide.symbolFor? node).isSome = (model.symbolFor? node).isSome := by
  rw [symbolFor?, symbolFor?, h.resolve?_eq]
  cases model.resolve? node with
  | none => rfl
  | some id => exact h.isSome_symbol? id

theorem Widens.newKind_eq (h : model.Widens wide) (callee : Expr) :
    wide.newKind callee = model.newKind callee := by
  cases callee with
  | symbol name span =>
      have hsome := h.symbolFor?_isSome name.id
      rw [newKind, newKind]
      split <;> split <;> simp_all
  | _ => rfl

theorem binaryKind_of_fixed {operator : TokenKind}
    (h : (operator == .plus || isArithmetic operator) = false) (left right other third : KindSet) :
    binaryKind operator left right = binaryKind operator other third := by
  simp only [Bool.or_eq_false_iff, beq_eq_false_iff_ne] at h
  simp [binaryKind, h.1, h.2]

theorem unaryKind_of_fixed {operator : TokenKind}
    (h : (operator == .dash || operator == .plus || operator == .tilde) = false)
    (operand other : KindSet) : unaryKind operator operand = unaryKind operator other := by
  simp only [Bool.or_eq_false_iff, beq_eq_false_iff_ne] at h
  unfold unaryKind
  split <;> simp_all

mutual

theorem Widens.classify_eq (h : model.Widens wide) (expr : Expr) (hasks : asks model expr = false) :
    classify wide expr = classify model expr := by
  match expr with
  | .symbol name span =>
      rw [asks, Option.isSome_eq_false_iff, Option.isNone_iff_eq_none] at hasks
      have hnone := h.symbolFor?_isSome name.id
      rw [hasks, Option.isSome_none, Option.isSome_eq_false_iff,
        Option.isNone_iff_eq_none] at hnone
      rw [classify, classify, kindsOf, kindsOf, hasks, hnone]
  | .assignment operator target value span =>
      rw [asks] at hasks
      rw [classify, classify]
      split
      · rename_i hkind
        rw [if_pos hkind] at hasks
        exact Widens.classify_eq h value hasks
      · rename_i hkind
        rw [if_neg hkind] at hasks
        split
        · rename_i binary hbinary
          rw [hbinary, Option.isSome_some, Bool.true_and, Bool.or_eq_false_iff] at hasks
          rw [Widens.classify_eq h target hasks.1, Widens.classify_eq h value hasks.2]
        · rfl
  | .sequence operands span =>
      rw [asks] at hasks
      rw [classify, classify]
      exact Widens.classifyLast_eq h operands hasks
  | .binary operator left right span =>
      rw [asks, Bool.and_eq_false_iff, Bool.or_eq_false_iff (x := asks model left)] at hasks
      rw [classify, classify]
      congr 1
      rcases hasks with hfixed | ⟨hleft, hright⟩
      · exact binaryKind_of_fixed hfixed _ _ _ _
      · rw [Widens.classify_eq h left hleft, Widens.classify_eq h right hright]
  | .unary operator operand span =>
      rw [asks, Bool.and_eq_false_iff] at hasks
      rw [classify, classify]
      congr 1
      rcases hasks with hfixed | hoperand
      · exact unaryKind_of_fixed hfixed _ _
      · rw [Widens.classify_eq h operand hoperand]
  | .new callee arguments span => rw [classify, classify, h.newKind_eq]
  | .number _ _ | .string _ _ _ | .template _ _ _ | .boolean _ _ | .null _ | .array _ _
  | .object _ _ | .regex _ _ _ | .function _ _ _ _ _ | .classDef _ _ _ _ | .update _ _ _ _
  | .call _ _ _ | .member _ _ _ | .index _ _ _ | .conditional _ _ _ _ | .spread _ _ =>
      rw [classify, classify]

theorem Widens.classifyLast_eq (h : model.Widens wide) (exprs : List Expr)
    (hasks : asksLast model exprs = false) :
    classifyLast wide exprs = classifyLast model exprs := by
  match exprs with
  | [] => rw [classifyLast, classifyLast]
  | [last] =>
      rw [asksLast] at hasks
      rw [classifyLast, classifyLast]
      exact Widens.classify_eq h last hasks
  | _ :: next :: others =>
      rw [asksLast] at hasks
      rw [classifyLast, classifyLast]
      exact Widens.classifyLast_eq h (next :: others) hasks

end

theorem addedBy_of_fixed (before : List WriteSite)
    (h : model.asksFor site.contribution = false) :
    model.addedBy before site = model.contributed site.contribution := by
  rw [addedBy]
  cases hcontribution : site.contribution with
  | kind fixed => rfl
  | value value =>
      rw [hcontribution] at h
      exact (Widens.writeAll model before).classify_eq value h

end Classification

end Model

namespace Binding

variable {binding later : Binding}

/-- No symbol of a model that is being built has a kind. -/
def Bare (binding : Binding) : Prop :=
  ∀ id symbol, binding.model.symbol? id = some symbol → symbol.kinds = .empty

theorem bare_start : Bare start := by
  intro id symbol h
  cases h

theorem Bare.declareIn (h : Bare binding) (scope : ScopeId) (declaration : Declaration) :
    Bare (binding.declareIn scope declaration) := by
  unfold Binding.declareIn
  split
  · exact h
  · intro id symbol hsymbol
    change (binding.addSymbol scope declaration).model.symbol? id = some symbol at hsymbol
    rw [symbol?_addSymbol] at hsymbol
    split at hsymbol
    · cases hsymbol
      rfl
    · exact h id symbol hsymbol

theorem Step.bare {action : Action} (h : Step binding action later) (hbare : Bare binding) :
    Bare later := by
  cases h with
  | declare | ensure | implicit => exact hbare.declareIn _ _
  | enter | leave | ensured | read | postpone | write | ignore => exact hbare

theorem Bare.run (h : Bare binding) (actions : List Action) : Bare (binding.run actions) := by
  induction actions generalizing binding with
  | nil => exact h
  | cons action others ih => exact ih ((binding.step_cases action).bare h)

end Binding

namespace Model

theorem not_has_bind (root : Block) (id : SymbolId) (kind : Kind) :
    ¬(bind root).Has id kind := by
  rintro ⟨symbol, hsymbol, hkind⟩
  rw [symbol?_bind] at hsymbol
  rw [Binding.bare_start.run _ id symbol hsymbol, KindSet.contains_empty] at hkind
  cases hkind

theorem isSome_symbol?_bind {root : Block} {node : NodeId} {id : SymbolId}
    (h : (bind root).resolve? node = some id) : ((bind root).symbol? id).isSome := by
  rw [symbol?, Array.getElem?_eq_getElem ((tabled_bind root).reference h)]
  rfl

theorem has_written {root : Block} {id : SymbolId} {kind : Kind} (sites : List WriteSite) :
    ((bind root).writeAll sites).Has id kind ↔
      ∃ before site after, sites = before ++ site :: after ∧
        (bind root).resolve? site.target = some id ∧
          ((bind root).addedBy before site).contains kind := by
  constructor
  · intro h
    have hid : ((bind root).symbol? id).isSome := by
      obtain ⟨symbol, hsymbol, _⟩ := h
      rw [← (Widens.writeAll (bind root) sites).isSome_symbol?, hsymbol]
      rfl
    exact ((has_writeAll hid sites).mp h).resolve_left (not_has_bind root id kind)
  · rintro ⟨before, site, after, heq, hresolve, hkind⟩
    apply (has_writeAll (isSome_symbol?_bind hresolve) sites).mpr
    exact .inr ⟨before, site, after, heq, hresolve, hkind⟩

end Model

namespace Script

variable {file : String} {tokens : List Token} {script : Script}

theorem mem_writes_iff (h : ofTokens file tokens = .ok script) {site : WriteSite} :
    site ∈ script.root.writes ↔
      ∃ node, Node.Inside node (.block script.root) ∧
        ∃ effect ∈ node.sites, effect.site = site := by
  change site ∈ (Node.block script.root).writes ↔ _
  rw [← Node.site_effects, List.mem_map]
  constructor
  · rintro ⟨effect, heffect, rfl⟩
    obtain ⟨node, hinside, hsite⟩ := Node.site_of_mem_effects heffect
    exact ⟨node, hinside, effect, hsite, rfl⟩
  · rintro ⟨node, hinside, effect, hsite, rfl⟩
    obtain ⟨last, hspelled⟩ := spelled h
    exact ⟨effect, Node.mem_effects_of_inside hinside
      (fun inner hinner => hspelled.initialized hinner) hsite, rfl⟩

/-- The kinds of a symbol are exactly those that the write sites in the tree of
a script, however deep, contribute to it when they take effect.  A kind that
does not depend on what is known about symbols is always among them. -/
theorem kinds_of_writes (h : ofTokens file tokens = .ok script) (id : SymbolId) (kind : Kind) :
    (∀ site, site ∈ script.root.writes ↔
      ∃ node, Node.Inside node (.block script.root) ∧
        ∃ effect ∈ node.sites, effect.site = site) ∧
      ((Model.ofScript script.root).Has id kind ↔
        ∃ before site after, script.root.writes = before ++ site :: after ∧
          (Model.bind script.root).resolve? site.target = some id ∧
            ((Model.bind script.root).addedBy before site).contains kind) ∧
      ∀ node, Node.Inside node (.block script.root) → ∀ effect ∈ node.sites,
        (Model.bind script.root).resolve? effect.site.target = some id →
          (Model.bind script.root).asksFor effect.site.contribution = false →
            ((Model.bind script.root).contributed effect.site.contribution).contains kind →
              (Model.ofScript script.root).Has id kind := by
  refine ⟨fun site => mem_writes_iff h, Model.has_written script.root.writes, ?_⟩
  intro node hinside effect heffect hresolve hfixed hkind
  obtain ⟨before, after, heq⟩ :=
    List.append_of_mem ((mem_writes_iff h).mpr ⟨node, hinside, effect, heffect, rfl⟩)
  rw [← Model.addedBy_of_fixed before hfixed] at hkind
  exact (Model.has_written script.root.writes).mpr ⟨before, _, after, heq, hresolve, hkind⟩

theorem exists_ok_of_any {result : Except Failure Script} {P : Script → Bool}
    (h : result.toOption.any P) : ∃ script, result = .ok script ∧ P script := by
  cases result with
  | error failure => cases h
  | ok script => exact ⟨script, rfl, h⟩

/-- In `x = y => x++` the write inside the function makes `x` a number. -/
theorem kinds_of_writes_in_arrow :
    ∃ script, ofTokens "arrow.js"
        [⟨.identifier, "x", ⟨0, 1⟩, false⟩, ⟨.assignment, "=", ⟨2, 3⟩, false⟩,
          ⟨.identifier, "y", ⟨4, 5⟩, false⟩, ⟨.arrow, "=>", ⟨6, 8⟩, false⟩,
          ⟨.identifier, "x", ⟨9, 10⟩, false⟩, ⟨.plusPlus, "++", ⟨10, 12⟩, false⟩] = .ok script ∧
      (Model.ofScript script.root).Has 0 .number := by
  have hcomputed : (ofTokens "arrow.js"
      [⟨.identifier, "x", ⟨0, 1⟩, false⟩, ⟨.assignment, "=", ⟨2, 3⟩, false⟩,
        ⟨.identifier, "y", ⟨4, 5⟩, false⟩, ⟨.arrow, "=>", ⟨6, 8⟩, false⟩,
        ⟨.identifier, "x", ⟨9, 10⟩, false⟩, ⟨.plusPlus, "++", ⟨10, 12⟩, false⟩]).toOption.any
      fun script => decide (∃ site ∈ script.root.writes,
        (Model.bind script.root).resolve? site.target = some 0 ∧
          (Model.bind script.root).asksFor site.contribution = false ∧
            ((Model.bind script.root).contributed site.contribution).contains .number) := by
    decide +kernel
  obtain ⟨script, hread, hwritten⟩ := exists_ok_of_any hcomputed
  obtain ⟨site, hsite, hresolve, hfixed, hkind⟩ := of_decide_eq_true hwritten
  obtain ⟨node, hinside, effect, heffect, rfl⟩ :=
    ((kinds_of_writes hread 0 .number).1 site).mp hsite
  exact ⟨script, hread,
    (kinds_of_writes hread 0 .number).2.2 node hinside effect heffect hresolve hfixed hkind⟩

end Script

end ScriptKinds
