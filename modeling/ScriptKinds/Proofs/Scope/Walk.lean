import ScriptKinds.Proofs.Scope.Coverage

/-!
How the actions of a construct lie along the occurrences in it.

A walk relates the actions of a construct to its occurrences, given the
declarations that have been carried out before, the open scopes and the number
of the next scope.  Every construct has a walk.  So a fact about binding can be
proved by induction on walks, with no regard to the kinds of construct.
-/

namespace ScriptKinds

/-- A walk along a part of a tree, with its actions and the occurrences in the part. -/
inductive Walk :
    List Declaration → List OpenScope → ScopeId → List Action → List Site → Prop where
  | nil {known : List Declaration} {scopes : List OpenScope} {next : ScopeId} :
      Walk known scopes next [] []
  | append {known : List Declaration} {scopes : List OpenScope} {next : ScopeId}
      {actions others : List Action} {sites otherSites : List Site}
      (hfirst : Walk known scopes next actions sites)
      (hsecond : Walk known scopes (next + opened actions) others otherSites) :
      Walk known scopes next (actions ++ others) (sites ++ otherSites)
  | read {known : List Declaration} {scopes : List OpenScope} {next : ScopeId}
      {name : Identifier} (hopen : scopes ≠ []) :
      Walk known scopes next [.read name] [⟨name, .read, scopes⟩]
  | write {known : List Declaration} {scopes : List OpenScope} {next : ScopeId}
      {name : Identifier} {position : Nat} (hopen : scopes ≠ []) :
      Walk known scopes next [.write name position] [⟨name, .write, scopes⟩]
  /-- An occurrence that was declared when its scope was entered. -/
  | declared {known : List Declaration} {scopes : List OpenScope} {next : ScopeId}
      {declaration : Declaration} {role : Role} (hopen : scopes ≠ [])
      (hknown : declaration ∈ known) (hrole : role = .hoisted ∨ role = .bound true) :
      Walk known scopes next [] [⟨declaration.name, role, scopes⟩]
  /-- A declaration that is known to have been carried out. -/
  | ensured {known : List Declaration} {scopes : List OpenScope} {next : ScopeId}
      {place : Place} {declaration : Declaration} (hknown : declaration ∈ known) :
      Walk known scopes next [.ensure place declaration] []
  /-- A declaration in the innermost scope that was not carried out on entering. -/
  | misplaced {known : List Declaration} {scopes : List OpenScope} {next : ScopeId}
      {declaration : Declaration} (hopen : scopes ≠ []) (himplicit : declaration.kind ≠ .implicit)
      (himported : declaration.kind ≠ .imported) :
      Walk known scopes next [.ensure .innermost declaration]
        [⟨declaration.name, .bound false, scopes⟩]
  /-- The outermost scope, and no other, is that of the script. -/
  | block {known : List Declaration} {scopes : List OpenScope} {next : ScopeId}
      {kind : ScopeKind} {declarations : List Declaration} {actions : List Action}
      {sites : List Site} (houtermost : scopes = [] → next = 0 ∧ kind = .script)
      (hinner : scopes ≠ [] → kind ≠ .script)
      (hcovers : Covers sites (some next) declarations)
      (hinside : Walk (declarations ++ known) (⟨next, kind, none⟩ :: scopes) (next + 1) actions
        sites) :
      Walk known scopes next (within kind (declareAll declarations ++ actions)) sites
  | function {known : List Declaration} {scopes : List OpenScope} {next : ScopeId}
      {parameters declarations : List Declaration} {defaults actions : List Action}
      {sites otherSites : List Site} (hopen : scopes ≠ [])
      (hparameters : Covers sites (some next) parameters)
      (hcovers : Covers otherSites (some next) declarations)
      (hdefaults : Walk (parameters ++ known) (.during next parameters :: scopes) (next + 1)
        defaults sites)
      (hinside : Walk (declarations ++ known) (⟨next, .function, none⟩ :: scopes)
        (next + 1 + opened defaults) actions otherSites) :
      Walk known scopes next
        (within .function (declareAll parameters ++ defaults ++ declareAll declarations ++ actions))
        (sites ++ otherSites)

section Opening

theorem opened_append (actions others : List Action) :
    opened (actions ++ others) = opened actions + opened others :=
  List.countP_append

theorem opened_declareAll (declarations : List Declaration) :
    opened (declareAll declarations) = 0 := by
  induction declarations with
  | nil => rfl
  | cons declaration others ih => exact ih

theorem opened_ensureAll (place : Place) (declarations : List Declaration) :
    opened (ensureAll place declarations) = 0 := by
  induction declarations with
  | nil => rfl
  | cons declaration others ih => exact ih

theorem opened_writes (names : List Identifier) (position : Nat) :
    opened (names.map fun name => .write name position) = 0 := by
  induction names with
  | nil => rfl
  | cons name others ih => exact ih

theorem opened_within (kind : ScopeKind) (actions : List Action) :
    opened (within kind actions) = 1 + opened actions := by
  rw [within, opened_append, opened, List.countP_cons_of_pos rfl]
  exact Nat.add_comm _ 1

theorem opened_block (kind : ScopeKind) (declarations : List Declaration) (actions : List Action) :
    opened (within kind (declareAll declarations ++ actions)) = 1 + opened actions := by
  rw [opened_within, opened_append, opened_declareAll, Nat.zero_add]

theorem opened_function (parameters declarations : List Declaration)
    (defaults actions : List Action) :
    opened (within .function
        (declareAll parameters ++ defaults ++ declareAll declarations ++ actions)) =
      1 + opened defaults + opened actions := by
  rw [opened_within, opened_append, opened_append, opened_append, opened_declareAll,
    opened_declareAll]
  omega

end Opening

namespace Walk

variable {known : List Declaration} {scopes : List OpenScope} {next : ScopeId}
variable {actions others : List Action} {sites otherSites : List Site}

theorem prepend (hfirst : Walk known scopes next actions sites) (hopened : opened actions = 0)
    (hsecond : Walk known scopes next others otherSites) :
    Walk known scopes next (actions ++ others) (sites ++ otherSites) := by
  apply hfirst.append
  rw [hopened]
  exact hsecond

theorem innerBlock (hopen : scopes ≠ []) {declarations : List Declaration}
    (hcovers : Covers sites (some next) declarations)
    (hinside : Walk (declarations ++ known) (⟨next, .block, none⟩ :: scopes) (next + 1) actions
      sites) :
    Walk known scopes next (within .block (declareAll declarations ++ actions)) sites := by
  apply block _ _ hcovers hinside
  · intro hnil
    exact absurd hnil hopen
  · intro _
    decide

theorem declaredAll (hopen : scopes ≠ []) {declarations : List Declaration} {role : Role}
    (hknown : declarations ⊆ known) (hrole : role = .hoisted ∨ role = .bound true) :
    Walk known scopes next [] (sitesOf role scopes (declarations.map Declaration.name)) := by
  induction declarations with
  | nil => exact nil
  | cons declaration others ih =>
      obtain ⟨hfirst, hothers⟩ := List.cons_subset.mp hknown
      exact (declared hopen hfirst hrole).append (ih hothers)

theorem ensuredSite (hopen : scopes ≠ []) {declaration : Declaration} {role : Role}
    {place : Place} (hknown : declaration ∈ known) (hrole : role = .hoisted ∨ role = .bound true) :
    Walk known scopes next [.ensure place declaration] [⟨declaration.name, role, scopes⟩] :=
  (ensured hknown).append (declared hopen hknown hrole)

theorem ensuredAll (hopen : scopes ≠ []) {declarations : List Declaration} {role : Role}
    {place : Place} (hknown : declarations ⊆ known) (hrole : role = .hoisted ∨ role = .bound true) :
    Walk known scopes next (ensureAll place declarations)
      (sitesOf role scopes (declarations.map Declaration.name)) := by
  induction declarations with
  | nil => exact nil
  | cons declaration others ih =>
      obtain ⟨hfirst, hothers⟩ := List.cons_subset.mp hknown
      exact (ensuredSite hopen hfirst hrole).append (ih hothers)

theorem misplacedAll (hopen : scopes ≠ []) {declarations : List Declaration}
    (hkind : ∀ declaration ∈ declarations, declaration.kind = .variable) :
    Walk known scopes next (ensureAll .innermost declarations)
      (sitesOf (.bound false) scopes (declarations.map Declaration.name)) := by
  induction declarations with
  | nil => exact nil
  | cons declaration others ih =>
      obtain ⟨hfirst, hothers⟩ := List.forall_mem_cons.mp hkind
      have hsite : Walk known scopes next [.ensure .innermost declaration]
          [⟨declaration.name, .bound false, scopes⟩] :=
        misplaced hopen (by rw [hfirst]; decide) (by rw [hfirst]; decide)
      exact hsite.append (ih hothers)

theorem writes (hopen : scopes ≠ []) (names : List Identifier) (position : Nat) :
    Walk known scopes next (names.map fun name => .write name position)
      (sitesOf .write scopes names) := by
  induction names with
  | nil => exact nil
  | cons name others ih =>
      have hsite : Walk known scopes next [.write name position] [⟨name, .write, scopes⟩] :=
        write hopen
      exact hsite.append ih

end Walk

end ScriptKinds
