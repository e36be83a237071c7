import ScriptKinds.Proofs.Scope.Construct
import ScriptKinds.Proofs.Scope.Ready

namespace ScriptKinds

section Balance

/-- An action that neither enters nor leaves a scope. -/
def Action.isQuiet : Action → Bool
  | .enter _ | .leave => false
  | _ => true

/-- Balanced actions leave just the scopes that they enter. -/
inductive Balanced : List Action → Prop
  | nil : Balanced []
  | quiet {action : Action} (h : action.isQuiet) : Balanced [action]
  | append {actions others : List Action} (h : Balanced actions) (h' : Balanced others) :
      Balanced (actions ++ others)
  | within {kind : ScopeKind} {actions : List Action} (h : Balanced actions) :
      Balanced (within kind actions)

theorem Balanced.declareAll (declarations : List Declaration) :
    Balanced (declareAll declarations) := by
  induction declarations with
  | nil => exact nil
  | cons declaration others ih =>
      have hfirst : Balanced [.declare declaration] := quiet rfl
      exact hfirst.append ih

theorem Walk.balanced {known : List Declaration} {scopes : List OpenScope} {next : ScopeId}
    {actions : List Action} {sites : List Site} (h : Walk known scopes next actions sites) :
    Balanced actions := by
  induction h with
  | nil => exact .nil
  | append hfirst hsecond ihfirst ihsecond => exact ihfirst.append ihsecond
  | read hopen => exact .quiet rfl
  | write hopen => exact .quiet rfl
  | declared hopen hknown hrole => exact .nil
  | ensured hknown => exact .quiet rfl
  | misplaced hopen himplicit himported => exact .quiet rfl
  | block houtermost hinner hcovers hinside ih => exact .within ((Balanced.declareAll _).append ih)
  | function hopen hparameters hcovers hdefaults hinside ihdefaults ihinside =>
      exact .within ((((Balanced.declareAll _).append ihdefaults).append
        (Balanced.declareAll _)).append ihinside)

theorem Construct.balanced (construct : Construct) : Balanced construct.actions := by
  have hopen : [(⟨0, .script, none⟩ : OpenScope)] ≠ [] := List.cons_ne_nil _ _
  cases construct with
  | expr inner => exact (Expr.walk [] hopen 0 inner).balanced
  | stmt inner =>
      exact (Stmt.walk inner.hoisted .nested hopen 0 inner (List.Subset.refl _)
        (List.nil_subset _)).balanced
  | block inner => exact (Block.walk hopen 0 inner (List.Subset.refl _)).balanced
  | function parameters body =>
      obtain ⟨id, stmts, span⟩ := body
      have hwalk : Walk [] _ 0 _ _ := .functionBody hopen
        (fun known => walk_parameters known (List.cons_ne_nil _ _) _ parameters)
        (fun known next => walk_stmts known .body (List.cons_ne_nil _ _) next stmts) id span
      exact hwalk.balanced
  | classBody superclass? members =>
      exact ((walk_expr? [] hopen 0 superclass?).append (walk_members [] hopen _ members)).balanced

theorem balanced_body (stmts : List Stmt) : Balanced (enterBody stmts ++ stmtActions stmts) := by
  rw [enterBody_eq, stmtActions_eq]
  refine (Balanced.declareAll _).append ?_
  induction stmts with
  | nil => exact .nil
  | cons stmt others ih => exact (Construct.stmt stmt).balanced.append ih

namespace Binding

variable {binding later : Binding}

theorem Step.path_eq {action : Action} (h : Step binding action later) (hquiet : action.isQuiet) :
    later.path = binding.path := by
  cases h with
  | enter | leave => cases hquiet
  | declare | ensure | implicit => exact path_declareIn _ _
  | ensured | read | postpone | write | ignore => rfl

end Binding

namespace Balanced

variable {actions : List Action}

theorem path_run (h : Balanced actions) (binding : Binding) :
    (binding.run actions).path = binding.path := by
  induction h generalizing binding with
  | nil => rfl
  | quiet h => exact (binding.run_cases _).path_eq h
  | append h h' ih ih' => rw [Binding.run_append, ih', ih]
  | within h ih =>
      rw [Binding.run_within, Binding.leave, ih]
      rfl

theorem within_eq_append {kind : ScopeKind} {done others : List Action}
    (h : ScriptKinds.within kind actions = done ++ others) :
    done = [] ∨ done = ScriptKinds.within kind actions ∨
      ∃ inside more, done = .enter kind :: inside ∧ actions = inside ++ more := by
  rcases List.cons_eq_append_iff.mp h with ⟨rfl, _⟩ | ⟨inside, rfl, hinside⟩
  · exact .inl rfl
  · rcases List.append_eq_append_iff.mp hinside with ⟨more, rfl, hmore⟩ | ⟨more, hmore, _⟩
    · rcases List.singleton_eq_append_iff.mp hmore with ⟨rfl, _⟩ | ⟨rfl, _⟩
      · exact .inr (.inr ⟨_, [], rfl, by simp⟩)
      · exact .inr (.inl rfl)
    · exact .inr (.inr ⟨inside, more, rfl, hmore⟩)

/-- The scopes that were open before balanced actions are open at every moment of
them. -/
theorem path_suffix (h : Balanced actions) (binding : Binding) {done others : List Action}
    (hsplit : actions = done ++ others) : binding.path <:+ (binding.run done).path := by
  induction h generalizing binding done others with
  | nil =>
      obtain ⟨rfl, rfl⟩ := List.nil_eq_append_iff.mp hsplit
      exact List.suffix_refl _
  | quiet h =>
      rcases List.singleton_eq_append_iff.mp hsplit with ⟨rfl, rfl⟩ | ⟨rfl, rfl⟩
      · exact List.suffix_refl _
      · simp only [(quiet h).path_run, List.suffix_refl]
  | append h h' ih ih' =>
      rcases List.append_eq_append_iff.mp hsplit with ⟨more, rfl, hmore⟩ | ⟨more, hmore, rfl⟩
      · rw [Binding.run_append, ← h.path_run binding]
        exact ih' _ hmore
      · exact ih binding hmore
  | @within kind actions h ih =>
      rcases within_eq_append hsplit with rfl | rfl | ⟨inside, more, rfl, hinside⟩
      · exact List.suffix_refl _
      · simp only [h.within.path_run, List.suffix_refl]
      · exact (List.suffix_cons _ _).trans (ih (binding.enter kind) hinside)

end Balanced

end Balance

section Places

namespace Binding

/-- The innermost open scope of a function or of the script, if one is open. -/
def boundary? (binding : Binding) : Option ScopeId :=
  binding.path.find? fun scope =>
    match binding.model.scope? scope with
    | some found => found.isBoundary
    | none => false

/-- Every place is an open scope, and none is only taken to be that of the script. -/
structure Rooted (binding : Binding) : Prop where
  innermost : binding.path.head? = some (binding.scopeAt .innermost)
  boundary : binding.boundary? = some (binding.scopeAt .boundary)

theorem Rooted.of_suffix {binding : Binding} {scope : Scope}
    (hpath : [scriptScope] <:+ binding.path)
    (hscope : binding.model.scope? scriptScope = some scope) (hkind : scope.kind = .script) :
    binding.Rooted where
  innermost := by
    obtain ⟨inner, hinner⟩ := hpath
    rw [scopeAt, ← hinner]
    cases inner <;> rfl
  boundary := by
    have hfound : binding.boundary?.isSome := by
      rw [boundary?, List.find?_isSome]
      refine ⟨scriptScope, hpath.subset List.mem_cons_self, ?_⟩
      rw [hscope]
      simp [Scope.isBoundary, hkind]
    obtain ⟨id, hid⟩ := Option.isSome_iff_exists.mp hfound
    change _ = some (binding.boundary?.getD scriptScope)
    rw [hid, Option.getD_some]

theorem rooted_script {root : Block} {done others : List Action}
    (hsplit : enterBody root.body ++ stmtActions root.body = done ++ others) :
    (start.run (.enter .script :: done)).Rooted := by
  have hpath := (balanced_body root.body).path_suffix (start.enter .script) hsplit
  have hentered : (start.enter .script).model.scope? scriptScope =
      some ⟨scriptScope, .script, none, []⟩ := rfl
  obtain ⟨names, hscope⟩ := (extends_run done).scope hentered
  exact .of_suffix hpath hscope rfl

end Binding

end Places

end ScriptKinds
