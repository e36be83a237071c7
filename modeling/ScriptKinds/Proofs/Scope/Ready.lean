import ScriptKinds.Proofs.Scope.Step
import ScriptKinds.Proofs.Scope.TreeWalk

namespace ScriptKinds

/-- The open scopes form a chain of parents in a model. -/
def Model.Opens (model : Model) : List OpenScope → Prop
  | [] => True
  | scope :: outer =>
      (∃ names, model.scope? scope.id = some ⟨scope.id, scope.kind, innermostOf? outer, names⟩) ∧
        model.Opens outer

/-- The open scopes around an occurrence lead from each to its parent and end at
that of the script. -/
def Site.Enclosed (site : Site) (model : Model) : Prop :=
  model.Opens site.scopes ∧ site.scopes.getLast? = some ⟨Binding.scriptScope, .script, none⟩

namespace Binding

variable {binding later : Binding}

theorem Extends.opens (h : Extends binding later) {scopes : List OpenScope}
    (hopens : binding.model.Opens scopes) : later.model.Opens scopes := by
  induction scopes with
  | nil => trivial
  | cons scope outer ih =>
      obtain ⟨⟨names, hscope⟩, houter⟩ := hopens
      obtain ⟨names', hlater⟩ := h.scope hscope
      exact ⟨⟨names', hlater⟩, ih houter⟩

/-- A state in which a walk can start with the scopes that it takes to be open. -/
structure Ready (binding : Binding) (known : List Declaration) (scopes : List OpenScope)
    (next : ScopeId) : Prop where
  path : binding.path = scopes.map OpenScope.id
  size : binding.model.scopes.size = next
  opens : binding.model.Opens scopes
  descending : (scopes.map OpenScope.id).Pairwise (· > ·)
  script : scopes = [] ∨ scopes.getLast? = some ⟨scriptScope, .script, none⟩
  knows : ∀ declaration ∈ known, (binding.model.resolve? declaration.name.id).isSome
  sound : binding.Sound

namespace Ready

variable {known known' : List Declaration} {scopes : List OpenScope} {next : ScopeId}

theorem start : Ready start [] [] 0 where
  path := rfl
  size := rfl
  opens := trivial
  descending := .nil
  script := .inl rfl
  knows _ h := by cases h
  sound := sound_start

theorem weaken (h : Ready binding known scopes next) (hknown : known' ⊆ known) :
    Ready binding known' scopes next :=
  { h with knows := fun declaration hmem => h.knows declaration (hknown hmem) }

theorem script_mem (h : Ready binding known scopes next) (hopen : scopes ≠ []) :
    ⟨scriptScope, .script, none⟩ ∈ scopes := by
  rcases h.script with hnil | hlast
  · exact absurd hnil hopen
  · exact List.mem_of_getLast? hlast

theorem lt_of_mem (h : Ready binding known scopes next) {scope : OpenScope}
    (hmem : scope ∈ scopes) : scope.id < binding.model.scopes.size := by
  have hopens := h.opens
  clear h
  induction scopes with
  | nil => cases hmem
  | cons first outer ih =>
      obtain ⟨⟨names, hfirst⟩, houter⟩ := hopens
      rcases List.mem_cons.mp hmem with rfl | hother
      · exact lt_of_scope? hfirst
      · exact ih hother houter

theorem enclosed (h : Ready binding known scopes next) (hopen : scopes ≠ []) (name : Identifier)
    (role : Role) : Site.Enclosed ⟨name, role, scopes⟩ binding.model := by
  refine ⟨h.opens, ?_⟩
  rcases h.script with hnil | hlast
  · exact absurd hnil hopen
  · exact hlast

theorem next_ne_zero (h : Ready binding known scopes next) (hopen : scopes ≠ []) : next ≠ 0 := by
  have hlt := h.lt_of_mem (h.script_mem hopen)
  rw [h.size] at hlt
  exact Nat.ne_of_gt hlt

theorem scopeAt_innermost {scope : OpenScope}
    (h : Ready binding known (scope :: scopes) next) : binding.scopeAt .innermost = scope.id := by
  rw [scopeAt, h.path]
  rfl

theorem refer (h : Ready binding known scopes next) (node : NodeId) (symbol : SymbolId) :
    Ready (binding.refer node symbol) known scopes next where
  path := h.path
  size := h.size
  opens := (extends_refer node symbol).opens h.opens
  descending := h.descending
  script := h.script
  knows declaration hmem := (extends_refer node symbol).resolved (h.knows declaration hmem)
  sound := h.sound.refer node symbol

theorem declareIn (h : Ready binding known scopes next) {scope : OpenScope} (hmem : scope ∈ scopes)
    {declaration : Declaration} (hdeclarable : Declarable scope.id declaration) :
    Ready (binding.declareIn scope.id declaration) (declaration :: known) scopes next where
  path := (path_declareIn _ _).trans h.path
  size := (size_declareIn _ _).trans h.size
  opens := (extends_declareIn _ _).opens h.opens
  descending := h.descending
  script := h.script
  knows other hother := by
    rcases List.mem_cons.mp hother with rfl | hknown
    · rw [resolve?_declareIn, if_pos rfl]
      rfl
    · exact (extends_declareIn _ _).resolved (h.knows other hknown)
  sound := h.sound.declareIn (h.lt_of_mem hmem) hdeclarable

theorem enter (h : Ready binding known scopes next) {kind : ScopeKind}
    {only? : Option (List String)}
    (houtermost : scopes = [] → (⟨next, kind, only?⟩ : OpenScope) = ⟨scriptScope, .script, none⟩) :
    Ready (binding.enter kind) known (⟨next, kind, only?⟩ :: scopes) (next + 1) where
  path := by
    change binding.model.scopes.size :: binding.path = _
    rw [h.size, h.path]
    rfl
  size := by
    rw [← h.size]
    exact Array.size_push _
  opens := by
    refine ⟨⟨[], ?_⟩, (extends_enter kind).opens h.opens⟩
    have hparent : binding.path.head? = innermostOf? scopes := by
      rw [h.path, List.head?_map]
      rfl
    rw [scope?_enter, if_pos h.size.symm, h.size, hparent]
  descending := by
    rw [List.map_cons, List.pairwise_cons]
    refine ⟨?_, h.descending⟩
    intro id hid
    obtain ⟨scope, hmem, rfl⟩ := List.mem_map.mp hid
    rw [← h.size]
    exact h.lt_of_mem hmem
  script := by
    right
    rcases h.script with rfl | hlast
    · rw [houtermost rfl]
      rfl
    · rw [List.getLast?_cons, hlast]
      rfl
  knows := h.knows
  sound := h.sound.enter kind

theorem leave {scope : OpenScope} (h : Ready binding known (scope :: scopes) next) :
    Ready binding.leave known scopes next where
  path := by
    change binding.path.tail = _
    rw [h.path]
    rfl
  size := h.size
  opens := h.opens.2
  descending := (List.pairwise_cons.mp h.descending).2
  script := by
    cases scopes with
    | nil => exact .inl rfl
    | cons outer others =>
        rcases h.script with hnil | hlast
        · cases hnil
        · exact .inr hlast
  knows := h.knows
  sound := ⟨h.sound.entry, h.sound.symbol, h.sound.implicit⟩

theorem only {id : ScopeId} {kind : ScopeKind} {only? : Option (List String)}
    (h : Ready binding known (⟨id, kind, only?⟩ :: scopes) next) (hopen : scopes ≠ [])
    (other? : Option (List String)) :
    Ready binding known (⟨id, kind, other?⟩ :: scopes) next where
  path := h.path
  size := h.size
  opens := h.opens
  descending := h.descending
  script := by
    obtain ⟨outer, others, rfl⟩ := List.exists_cons_of_ne_nil hopen
    rcases h.script with hnil | hlast
    · cases hnil
    · exact .inr hlast
  knows := h.knows
  sound := h.sound

theorem declares {scope : OpenScope} (h : Ready binding known (scope :: scopes) next)
    {declarations : List Declaration}
    (hkind : ∀ declaration ∈ declarations, declaration.kind ≠ .implicit) :
    Ready (binding.run (declareAll declarations)) (declarations ++ known)
      (scope :: scopes) next := by
  induction declarations generalizing binding known with
  | nil => exact h
  | cons declaration others ih =>
      obtain ⟨hfirst, hothers⟩ := List.forall_mem_cons.mp hkind
      have hnext : Ready (binding.step (.declare declaration)) (declaration :: known)
          (scope :: scopes) next := by
        rw [step, h.scopeAt_innermost]
        exact h.declareIn List.mem_cons_self fun himplicit => absurd himplicit hfirst
      apply (ih hnext hothers).weaken
      exact List.perm_middle.symm.subset

theorem enterScope (h : Ready binding known scopes next) {kind : ScopeKind}
    (houtermost : scopes = [] → next = 0 ∧ kind = .script) :
    Ready (binding.enter kind) known (⟨next, kind, none⟩ :: scopes) (next + 1) := by
  apply h.enter
  intro hnil
  obtain ⟨rfl, rfl⟩ := houtermost hnil
  rfl

theorem enterBlock (h : Ready binding known scopes next) {kind : ScopeKind}
    {declarations : List Declaration} {sites : List Site}
    (houtermost : scopes = [] → next = 0 ∧ kind = .script)
    (hcovers : Covers sites (some next) declarations) :
    Ready ((binding.enter kind).run (declareAll declarations)) (declarations ++ known)
      (⟨next, kind, none⟩ :: scopes) (next + 1) :=
  (h.enterScope houtermost).declares fun declaration hmem => (hcovers declaration hmem).1

theorem enterFunction (h : Ready binding known scopes next) {parameters : List Declaration}
    {sites : List Site} (hopen : scopes ≠ []) (hcovers : Covers sites (some next) parameters) :
    Ready ((binding.enter .function).run (declareAll parameters)) (parameters ++ known)
      (.during next parameters :: scopes) (next + 1) :=
  (h.enter fun hnil => absurd hnil hopen).declares
    fun declaration hmem => (hcovers declaration hmem).1

theorem enterBody {id : ScopeId} {parameters declarations : List Declaration} {sites : List Site}
    (h : Ready binding (parameters ++ known) (.during id parameters :: scopes) next)
    (hopen : scopes ≠ []) (hcovers : Covers sites (some id) declarations) :
    Ready (binding.run (declareAll declarations)) (declarations ++ known)
      (⟨id, .function, none⟩ :: scopes) next :=
  ((h.weaken (List.subset_append_right _ _)).only hopen none).declares
    fun declaration hmem => (hcovers declaration hmem).1

end Ready

section Run

theorem ensure_eq {place : Place} {declaration : Declaration}
    (h : (binding.model.resolve? declaration.name.id).isSome) :
    binding.step (.ensure place declaration) = binding := by
  obtain ⟨symbol, hsymbol⟩ := Option.isSome_iff_exists.mp h
  exact (Step.ensured hsymbol).eq

theorem run_within (binding : Binding) (kind : ScopeKind) (actions : List Action) :
    binding.run (within kind actions) = ((binding.enter kind).run actions).leave := by
  change (binding.enter kind).run (actions ++ [.leave]) = _
  rw [run_append]
  rfl

theorem run_block (binding : Binding) (kind : ScopeKind) (declarations : List Declaration)
    (actions : List Action) :
    binding.run (within kind (declareAll declarations ++ actions)) =
      (((binding.enter kind).run (declareAll declarations)).run actions).leave := by
  rw [run_within, run_append]

theorem run_function (binding : Binding) (parameters declarations : List Declaration)
    (defaults actions : List Action) :
    binding.run (within .function
        (declareAll parameters ++ defaults ++ declareAll declarations ++ actions)) =
      (((((binding.enter .function).run (declareAll parameters)).run defaults).run
        (declareAll declarations)).run actions).leave := by
  rw [run_within, run_append, run_append, run_append]

end Run

end Binding

theorem Site.Enclosed.extend {site : Site} {binding later : Binding}
    (h : site.Enclosed binding.model) (hextends : binding.Extends later) :
    site.Enclosed later.model :=
  ⟨hextends.opens h.1, h.2⟩

section Invariant

variable {known : List Declaration} {scopes : List OpenScope} {next : ScopeId}
variable {actions : List Action} {sites : List Site} {binding : Binding}

theorem Walk.ready (h : Walk known scopes next actions sites)
    (hready : binding.Ready known scopes next) :
    (binding.run actions).Ready known scopes (next + opened actions) := by
  induction h generalizing binding with
  | nil => exact hready
  | append hfirst hsecond ihfirst ihsecond =>
      rw [Binding.run_append, opened_append, ← Nat.add_assoc]
      exact ihsecond (ihfirst hready)
  | @read known scopes next name hopen =>
      have hstep := binding.run_cases (.read name)
      generalize binding.run [.read name] = later at hstep ⊢
      cases hstep with
      | read => exact hready.refer _ _
      | postpone =>
          exact { hready with
            sound := ⟨hready.sound.entry, hready.sound.symbol, hready.sound.implicit⟩ }
  | @write known scopes next name position hopen =>
      have hstep := binding.run_cases (.write name position)
      generalize binding.run [.write name position] = later at hstep ⊢
      cases hstep with
      | write => exact hready.refer _ _
      | ignore => exact hready
      | implicit _ hname =>
          exact (hready.declareIn (hready.script_mem hopen) fun _ => ⟨rfl, hname⟩).weaken
            (List.subset_cons_self _ _)
  | declared hopen hknown hrole => exact hready
  | @ensured known scopes next place declaration hknown =>
      change (binding.step (.ensure place declaration)).Ready known scopes next
      rw [Binding.ensure_eq (hready.knows declaration hknown)]
      exact hready
  | @misplaced known scopes next declaration hopen himplicit himported =>
      obtain ⟨scope, outer, rfl⟩ := List.exists_cons_of_ne_nil hopen
      have hstep := binding.run_cases (.ensure .innermost declaration)
      generalize binding.run [.ensure .innermost declaration] = later at hstep ⊢
      cases hstep with
      | ensured => exact hready
      | ensure =>
          rw [hready.scopeAt_innermost]
          exact (hready.declareIn List.mem_cons_self fun h => absurd h himplicit).weaken
            (List.subset_cons_self _ _)
  | @block known scopes next kind declarations actions sites houtermost hinner hcovers hinside ih =>
      rw [Binding.run_block, opened_block, ← Nat.add_assoc]
      have hentered := hready.enterBlock houtermost hcovers
      exact (ih hentered).leave.weaken (List.subset_append_right _ _)
  | @function known scopes next parameters declarations defaults actions sites otherSites hopen
      hparameters hcovers hdefaults hinside ihdefaults ihinside =>
      rw [Binding.run_function, opened_function, ← Nat.add_assoc, ← Nat.add_assoc]
      have hafter := ihdefaults (hready.enterFunction hopen hparameters)
      have hbody := ihinside (hafter.enterBody hopen hcovers)
      exact hbody.leave.weaken (List.subset_append_right _ _)

theorem Walk.enclosed (h : Walk known scopes next actions sites)
    (hready : binding.Ready known scopes next) :
    ∀ site ∈ sites, site.Enclosed (binding.run actions).model := by
  intro site hsite
  induction h generalizing binding with
  | nil => cases hsite
  | append hfirst hsecond ihfirst ihsecond =>
      rw [Binding.run_append]
      rcases List.mem_append.mp hsite with hmem | hmem
      · exact (ihfirst hready hmem).extend (Binding.extends_run _)
      · exact ihsecond (hfirst.ready hready) hmem
  | read hopen =>
      obtain rfl := List.mem_singleton.mp hsite
      exact (hready.enclosed hopen _ _).extend (Binding.extends_run _)
  | write hopen =>
      obtain rfl := List.mem_singleton.mp hsite
      exact (hready.enclosed hopen _ _).extend (Binding.extends_run _)
  | declared hopen hknown hrole =>
      obtain rfl := List.mem_singleton.mp hsite
      exact hready.enclosed hopen _ _
  | ensured hknown => cases hsite
  | misplaced hopen himplicit himported =>
      obtain rfl := List.mem_singleton.mp hsite
      exact (hready.enclosed hopen _ _).extend (Binding.extends_run _)
  | block houtermost hinner hcovers hinside ih =>
      rw [Binding.run_block]
      exact ih (hready.enterBlock houtermost hcovers) hsite
  | function hopen hparameters hcovers hdefaults hinside ihdefaults ihinside =>
      rw [Binding.run_function]
      have hentered := hready.enterFunction hopen hparameters
      have hbody := (hdefaults.ready hentered).enterBody hopen hcovers
      rcases List.mem_append.mp hsite with hmem | hmem
      · apply (ihdefaults hentered hmem).extend
        exact ((Binding.extends_run _).trans (Binding.extends_run _)).trans Binding.extends_leave
      · exact ihinside hbody hmem

end Invariant

end ScriptKinds
