import ScriptKinds.Proofs.Scope.Bracketing
import ScriptKinds.Proofs.Scope.Table

namespace ScriptKinds

section Tables

namespace Binding

variable {binding middle later : Binding}

/-- A later state has the same symbols and scopes and further ones behind them, and
the tables of names have grown at their ends only. -/
structure Appends (binding later : Binding) : Prop where
  symbols : binding.model.symbols.toList <+: later.model.symbols.toList
  scopes : ∀ {id scope}, binding.model.scope? id = some scope →
    ∃ added, later.model.scope? id = some { scope with names := scope.names ++ added }

namespace Appends

theorem refl (binding : Binding) : Appends binding binding where
  symbols := List.prefix_refl _
  scopes h := ⟨[], by rw [h, List.append_nil]⟩

theorem trans (h : Appends binding middle) (h' : Appends middle later) :
    Appends binding later where
  symbols := h.symbols.trans h'.symbols
  scopes hscope := by
    obtain ⟨added, hmiddle⟩ := h.scopes hscope
    obtain ⟨more, hlater⟩ := h'.scopes hmiddle
    exact ⟨added ++ more, by rw [hlater, List.append_assoc]⟩

theorem of_eq (hsymbols : later.model.symbols = binding.model.symbols)
    (hscopes : later.model.scopes = binding.model.scopes) : Appends binding later where
  symbols := by simp only [hsymbols, List.prefix_refl]
  scopes {id scope} h := by
    refine ⟨[], ?_⟩
    rw [Model.scope?, hscopes, ← Model.scope?, h, List.append_nil]

end Appends

theorem appends_enter (kind : ScopeKind) : Appends binding (binding.enter kind) where
  symbols := List.prefix_refl _
  scopes {id scope} h := by
    have hne : id ≠ binding.model.scopes.size := Nat.ne_of_lt (lt_of_scope? h)
    rw [scope?_enter, if_neg hne]
    exact ⟨[], by rw [h, List.append_nil]⟩

theorem appends_addSymbol {scope : ScopeId} {declaration : Declaration}
    (hnew : binding.findIn? declaration.name.name scope = none) :
    Appends binding (binding.addSymbol scope declaration) where
  symbols := by
    rw [addSymbol, Array.toList_push]
    exact List.prefix_append _ _
  scopes {id found} h := by
    rw [scope?_addSymbol]
    split
    · rename_i heq
      subst heq
      rw [findIn?, h, Option.bind_some] at hnew
      rw [h, Option.map_some, Scope.declare, Scope.bindName_of_new (Scope.lookup_eq_none hnew)]
      exact ⟨_, rfl⟩
    · exact ⟨[], by rw [h, List.append_nil]⟩

theorem appends_declareIn (scope : ScopeId) (declaration : Declaration) :
    Appends binding (binding.declareIn scope declaration) := by
  unfold declareIn
  split
  · exact .of_eq rfl rfl
  · exact (appends_addSymbol ‹_›).trans (.of_eq rfl rfl)

theorem Step.appends {action : Action} (h : Step binding action later) :
    Appends binding later := by
  cases h with
  | enter => exact appends_enter _
  | declare | ensure | implicit => exact appends_declareIn _ _
  | leave | ensured | read | postpone | write | ignore => exact .of_eq rfl rfl

theorem appends_run (actions : List Action) : Appends binding (binding.run actions) := by
  induction actions generalizing binding with
  | nil => exact .refl _
  | cons action others ih => exact (binding.step_cases action).appends.trans ih

end Binding

end Tables

section References

variable {binding later : Binding} {known declarations : List Declaration}
variable {scopes : List OpenScope} {next : ScopeId} {actions others : List Action}
variable {sites otherSites : List Site} {node : NodeId}

namespace Binding

/-- In a later state every occurrence that had a symbol has the same one. -/
def Recalls (binding later : Binding) : Prop :=
  ∀ node symbol, binding.model.resolve? node = some symbol →
    later.model.resolve? node = some symbol

/-- None of some actions changes the symbol of an occurrence. -/
def Steadfast (binding : Binding) : List Action → Prop
  | [] => True
  | action :: others =>
      binding.Recalls (binding.step action) ∧ (binding.step action).Steadfast others

theorem steadfast_append :
    binding.Steadfast (actions ++ others) ↔
      binding.Steadfast actions ∧ (binding.run actions).Steadfast others := by
  induction actions generalizing binding with
  | nil => exact ⟨fun h => ⟨trivial, h⟩, And.right⟩
  | cons action rest ih =>
      rw [List.cons_append, Steadfast, Steadfast, ih, and_assoc]
      rfl

theorem Steadfast.recalls (h : binding.Steadfast actions) :
    binding.Recalls (binding.run actions) := by
  induction actions generalizing binding with
  | nil => exact fun _ _ hsymbol => hsymbol
  | cons action others ih =>
      intro node symbol hsymbol
      exact ih h.2 node symbol (h.1 node symbol hsymbol)

theorem steadfast_within {kind : ScopeKind} (h : (binding.enter kind).Steadfast actions) :
    binding.Steadfast (within kind actions) :=
  ⟨fun _ _ hsymbol => hsymbol,
    steadfast_append.mpr ⟨h, fun _ _ hsymbol => hsymbol, trivial⟩⟩

theorem recalls_refer {symbol : SymbolId} (h : binding.model.resolve? node = none) :
    binding.Recalls (binding.refer node symbol) := by
  intro other found hfound
  rw [resolve?_refer, if_neg, hfound]
  rintro rfl
  rw [h] at hfound
  cases hfound

/-- A declaration changes no reference, if its occurrence has no symbol or has that of
its name in the scope. -/
theorem recalls_declareIn {scope : ScopeId} {declaration : Declaration}
    (h : ∀ symbol, binding.model.resolve? declaration.name.id = some symbol →
      binding.findIn? declaration.name.name scope = some symbol) :
    binding.Recalls (binding.declareIn scope declaration) := by
  intro node symbol hsymbol
  rw [resolve?_declareIn]
  split
  · rename_i hnode
    rw [hnode] at hsymbol
    rw [declared, h symbol hsymbol]
    rfl
  · exact hsymbol

theorem recalls_declareNew {scope : ScopeId} {declaration : Declaration}
    (h : binding.model.resolve? declaration.name.id = none) :
    binding.Recalls (binding.declareIn scope declaration) := by
  apply recalls_declareIn
  intro symbol hsymbol
  rw [h] at hsymbol
  cases hsymbol

theorem resolve?_declareAll (h : ∀ declaration ∈ declarations, declaration.name.id ≠ node) :
    (binding.run (declareAll declarations)).model.resolve? node = binding.model.resolve? node := by
  induction declarations generalizing binding with
  | nil => rfl
  | cons declaration others ih =>
      obtain ⟨hfirst, hothers⟩ := List.forall_mem_cons.mp h
      refine (ih hothers).trans ?_
      exact (resolve?_declareIn _ _ _).trans (if_neg (Ne.symm hfirst))

theorem steadfast_declareAll (hscope : binding.scopeAt .innermost < binding.model.scopes.size)
    (hnames : ∀ declaration ∈ declarations, ∀ other ∈ declarations,
      declaration.name.id = other.name.id → declaration.name = other.name)
    (hentries : ∀ declaration ∈ declarations, ∀ symbol,
      binding.model.resolve? declaration.name.id = some symbol →
        binding.findIn? declaration.name.name (binding.scopeAt .innermost) = some symbol) :
    binding.Steadfast (declareAll declarations) := by
  induction declarations generalizing binding with
  | nil => trivial
  | cons declaration others ih =>
      obtain ⟨hfirst, hothers⟩ := List.forall_mem_cons.mp hentries
      refine ⟨recalls_declareIn hfirst, ?_⟩
      have hnext := @ih (binding.declareIn (binding.scopeAt .innermost) declaration)
      rw [scopeAt_declareIn, size_declareIn] at hnext
      apply hnext hscope
      · intro other hother another hanother
        exact hnames other (List.mem_cons_of_mem _ hother) another (List.mem_cons_of_mem _ hanother)
      · intro other hother symbol hsymbol
        rw [resolve?_declareIn] at hsymbol
        split at hsymbol
        · rename_i hid
          have hname := hnames other (List.mem_cons_of_mem _ hother) declaration
            List.mem_cons_self hid
          rw [findIn?_declareIn hscope, if_pos ⟨rfl, congrArg Identifier.name hname⟩, hsymbol]
        · exact (extends_declareIn _ _).entry (hothers other hother symbol hsymbol)

end Binding

theorem Covers.id_ne {home? : Option ScopeId} (h : Covers sites home? declarations)
    (hother : ∀ site ∈ sites, site.name.id ≠ node) :
    ∀ declaration ∈ declarations, declaration.name.id ≠ node := by
  intro declaration hdeclaration
  obtain ⟨_, site, hsite, hname, _⟩ := h declaration hdeclaration
  rw [← hname]
  exact hother site hsite

theorem Walk.resolve?_frame (h : Walk known scopes next actions sites)
    (hready : binding.Ready known scopes next) (hother : ∀ site ∈ sites, site.name.id ≠ node) :
    (binding.run actions).model.resolve? node = binding.model.resolve? node := by
  induction h generalizing binding with
  | nil => rfl
  | append hfirst hsecond ihfirst ihsecond =>
      obtain ⟨hotherFirst, hotherSecond⟩ := List.forall_mem_append.mp hother
      rw [Binding.run_append, ihsecond (hfirst.ready hready) hotherSecond,
        ihfirst hready hotherFirst]
  | @read known scopes next name hopen =>
      have hname : name.id ≠ node := hother _ List.mem_cons_self
      have hstep := binding.run_cases (.read name)
      generalize binding.run [.read name] = later at hstep ⊢
      cases hstep with
      | read => rw [Binding.resolve?_refer, if_neg hname.symm]
      | postpone => rfl
  | @write known scopes next name position hopen =>
      have hname : name.id ≠ node := hother _ List.mem_cons_self
      have hstep := binding.run_cases (.write name position)
      generalize binding.run [.write name position] = later at hstep ⊢
      cases hstep with
      | write => rw [Binding.resolve?_refer, if_neg hname.symm]
      | ignore => rfl
      | implicit => rw [Binding.resolve?_declareIn, if_neg hname.symm]
  | declared hopen hknown hrole => rfl
  | @ensured known scopes next place declaration hknown =>
      change (binding.step (.ensure place declaration)).model.resolve? node = _
      rw [Binding.ensure_eq (hready.knows declaration hknown)]
  | @misplaced known scopes next declaration hopen himplicit himported =>
      have hname : declaration.name.id ≠ node := hother _ List.mem_cons_self
      have hstep := binding.run_cases (.ensure .innermost declaration)
      generalize binding.run [.ensure .innermost declaration] = later at hstep ⊢
      cases hstep with
      | ensured => rfl
      | ensure => rw [Binding.resolve?_declareIn, if_neg hname.symm]
  | @block known scopes next kind declarations actions sites houtermost hinner hcovers hinside ih =>
      rw [Binding.run_block]
      exact (ih (hready.enterBlock houtermost hcovers) hother).trans
        (Binding.resolve?_declareAll (hcovers.id_ne hother))
  | @function known scopes next parameters declarations defaults actions sites otherSites hopen
      hparameters hcovers hdefaults hinside ihdefaults ihinside =>
      obtain ⟨hotherFirst, hotherSecond⟩ := List.forall_mem_append.mp hother
      rw [Binding.run_function]
      have hentered := hready.enterFunction hopen hparameters
      have hbody := (hdefaults.ready hentered).enterBody hopen hcovers
      calc
        _ = _ := ihinside hbody hotherSecond
        _ = _ := Binding.resolve?_declareAll (hcovers.id_ne hotherSecond)
        _ = _ := ihdefaults hentered hotherFirst
        _ = _ := Binding.resolve?_declareAll (hparameters.id_ne hotherFirst)

/-- No occurrence has a symbol yet, except declarations in scopes that are open before
the next one is. -/
def Unmet (binding : Binding) (next : ScopeId) (sites : List Site) : Prop :=
  ∀ site ∈ sites, (∀ home, site.home? = some home → next ≤ home) →
    binding.model.resolve? site.name.id = none

namespace Unmet

theorem mono {later : ScopeId} (h : Unmet binding next sites) (hle : next ≤ later) :
    Unmet binding later sites :=
  fun site hsite hhome => h site hsite fun home hsome => hle.trans (hhome home hsome)

theorem keep (h : Unmet binding next sites)
    (hsame : ∀ site ∈ sites, later.model.resolve? site.name.id =
      binding.model.resolve? site.name.id) : Unmet later next sites := by
  intro site hsite hhome
  rw [hsame site hsite]
  exact h site hsite hhome

theorem of_use (h : Unmet binding next sites) {site : Site} (hsite : site ∈ sites)
    (huse : site.home? = none) : binding.model.resolve? site.name.id = none := by
  apply h site hsite
  intro home hsome
  rw [huse] at hsome
  cases hsome

theorem of_covers (h : Unmet binding next sites) (hcovers : Covers sites (some next) declarations) :
    ∀ declaration ∈ declarations, binding.model.resolve? declaration.name.id = none := by
  intro declaration hdeclaration
  obtain ⟨_, site, hsite, hname, hhome⟩ := hcovers declaration hdeclaration
  rw [← hname]
  apply h site hsite
  intro home hsome
  rw [hhome] at hsome
  exact (Option.some.inj hsome).le

/-- Declaring what belongs to the next scope leaves only what belongs to those behind
it. -/
theorem declareAll (h : Unmet binding next sites) (hcovers : Covers sites (some next) declarations)
    (hnodup : (sites.map fun site => site.name.id).Nodup) :
    Unmet (binding.run (declareAll declarations)) (next + 1) sites := by
  intro site hsite hhome
  rw [Binding.resolve?_declareAll]
  · exact h.mono (Nat.le_succ next) site hsite hhome
  · intro declaration hdeclaration hid
    obtain ⟨_, other, hother, hname, hnext⟩ := hcovers declaration hdeclaration
    rw [← hname] at hid
    obtain rfl := List.inj_on_of_nodup_map hnodup hother hsite hid
    exact Nat.not_succ_le_self next (hhome next hnext)

theorem steadfast (h : Unmet binding next sites) (hcovers : Covers sites (some next) declarations)
    (hnodup : (sites.map fun site => site.name.id).Nodup)
    (hscope : binding.scopeAt .innermost < binding.model.scopes.size) :
    binding.Steadfast (ScriptKinds.declareAll declarations) := by
  apply Binding.steadfast_declareAll hscope
  · intro declaration hdeclaration other hother hid
    obtain ⟨_, site, hsite, hname, _⟩ := hcovers declaration hdeclaration
    obtain ⟨_, otherSite, hotherSite, hotherName, _⟩ := hcovers other hother
    rw [← hname, ← hotherName] at hid ⊢
    rw [List.inj_on_of_nodup_map hnodup hsite hotherSite hid]
  · intro declaration hdeclaration symbol hsymbol
    rw [h.of_covers hcovers declaration hdeclaration] at hsymbol
    cases hsymbol

end Unmet

/-- A walk changes the symbol of no occurrence, if it has not met its own before and
meets each of them once. -/
theorem Walk.steadfast (h : Walk known scopes next actions sites)
    (hready : binding.Ready known scopes next)
    (hnodup : (sites.map fun site => site.name.id).Nodup) (hunmet : Unmet binding next sites) :
    binding.Steadfast actions := by
  -- A part of the walk leaves the occurrences of the other parts unmet, since theirs are
  -- not among its own.
  induction h generalizing binding with
  | nil => trivial
  | @append known scopes next actions others sites otherSites hfirst hsecond ihfirst ihsecond =>
      rw [List.map_append, List.nodup_append] at hnodup
      obtain ⟨hnodupFirst, hnodupSecond, hdisjoint⟩ := hnodup
      obtain ⟨hunmetFirst, hunmetSecond⟩ := List.forall_mem_append.mp hunmet
      refine Binding.steadfast_append.mpr ⟨ihfirst hready hnodupFirst hunmetFirst, ?_⟩
      apply ihsecond (hfirst.ready hready) hnodupSecond
      apply Unmet.mono _ (Nat.le_add_right next _)
      apply Unmet.keep hunmetSecond
      intro site hsite
      apply hfirst.resolve?_frame hready
      intro other hother
      exact hdisjoint _ (List.mem_map_of_mem hother) _ (List.mem_map_of_mem hsite)
  | @read known scopes next name hopen =>
      have hnone := hunmet.of_use List.mem_cons_self rfl
      have hstep := binding.step_cases (.read name)
      refine ⟨?_, trivial⟩
      generalize binding.step (.read name) = later at hstep ⊢
      cases hstep with
      | read => exact Binding.recalls_refer hnone
      | postpone => exact fun _ _ hsymbol => hsymbol
  | @write known scopes next name position hopen =>
      have hnone := hunmet.of_use List.mem_cons_self rfl
      have hstep := binding.step_cases (.write name position)
      refine ⟨?_, trivial⟩
      generalize binding.step (.write name position) = later at hstep ⊢
      cases hstep with
      | write => exact Binding.recalls_refer hnone
      | ignore => exact fun _ _ hsymbol => hsymbol
      | implicit => exact Binding.recalls_declareNew hnone
  | declared hopen hknown hrole => trivial
  | @ensured known scopes next place declaration hknown =>
      refine ⟨?_, trivial⟩
      rw [Binding.ensure_eq (hready.knows declaration hknown)]
      exact fun _ _ hsymbol => hsymbol
  | @misplaced known scopes next declaration hopen himplicit himported =>
      have hstep := binding.step_cases (.ensure .innermost declaration)
      refine ⟨?_, trivial⟩
      generalize binding.step (.ensure .innermost declaration) = later at hstep ⊢
      cases hstep with
      | ensured => exact fun _ _ hsymbol => hsymbol
      | ensure h => exact Binding.recalls_declareNew h
  | @block known scopes next kind declarations actions sites houtermost hinner hcovers hinside ih =>
      have hentered : Unmet (binding.enter kind) next sites := hunmet
      refine Binding.steadfast_within (Binding.steadfast_append.mpr ⟨?_, ?_⟩)
      · exact hentered.steadfast hcovers hnodup (Binding.scopeAt_enter_lt kind)
      · exact ih (hready.enterBlock houtermost hcovers) hnodup (hentered.declareAll hcovers hnodup)
  | @function known scopes next parameters declarations defaults actions sites otherSites hopen
      hparameters hcovers hdefaults hinside ihdefaults ihinside =>
      rw [List.map_append, List.nodup_append] at hnodup
      obtain ⟨hnodupFirst, hnodupSecond, hdisjoint⟩ := hnodup
      obtain ⟨hunmetFirst, hunmetSecond⟩ := List.forall_mem_append.mp hunmet
      have hentered := hready.enterFunction hopen hparameters
      have hdefaulted := hdefaults.ready hentered
      have hfirst : Unmet (binding.enter .function) next sites := hunmetFirst
      have hsecond : Unmet (((binding.enter .function).run (declareAll parameters)).run defaults)
          next otherSites := by
        apply Unmet.keep hunmetSecond
        intro site hsite
        have hother : ∀ other ∈ sites, other.name.id ≠ site.name.id :=
          fun other hother => hdisjoint _ (List.mem_map_of_mem hother) _ (List.mem_map_of_mem hsite)
        exact (hdefaults.resolve?_frame hentered hother).trans
          (Binding.resolve?_declareAll (hparameters.id_ne hother))
      have hinnermost := hdefaulted.lt_of_mem List.mem_cons_self
      rw [← hdefaulted.scopeAt_innermost] at hinnermost
      apply Binding.steadfast_within
      rw [Binding.steadfast_append, Binding.steadfast_append, Binding.steadfast_append,
        Binding.run_append, Binding.run_append, Binding.run_append]
      refine ⟨⟨⟨?_, ?_⟩, ?_⟩, ?_⟩
      · exact hfirst.steadfast hparameters hnodupFirst (Binding.scopeAt_enter_lt .function)
      · exact ihdefaults hentered hnodupFirst (hfirst.declareAll hparameters hnodupFirst)
      · exact hsecond.steadfast hcovers hnodupSecond hinnermost
      · apply ihinside (hdefaulted.enterBody hopen hcovers) hnodupSecond
        exact (hsecond.declareAll hcovers hnodupSecond).mono (Nat.le_add_right _ _)

end References

section Script

/-- A later state has grown at the ends of lists and tables only, and every name in a
scope and every occurrence that had a symbol has the same one. -/
structure Binding.Retains (binding later : Binding) : Prop extends Appends binding later where
  entry : ∀ {name scope symbol}, binding.findIn? name scope = some symbol →
    later.findIn? name scope = some symbol
  recalls : binding.Recalls later

/-- What some actions do to the state in which they start. -/
structure Binding.Brackets (entered : Binding) (actions : List Action) : Prop where
  /-- In the end the same scopes are open as at the start. -/
  path : (entered.run actions).path = entered.path
  /-- These are open all the time, and there are scopes for all declarations. -/
  rooted : ∀ {inner others}, actions = inner ++ others →
    entered.path <:+ (entered.run inner).path ∧ (entered.run inner).Rooted
  /-- From any moment to a later one nothing is taken back. -/
  retains : ∀ {inner middle others}, actions = inner ++ middle ++ others →
    (entered.run inner).Retains (entered.run (inner ++ middle))

namespace Script

variable {file : String} {tokens : List Token} {script : Script}

theorem steadfast (h : ofTokens file tokens = .ok script) :
    Binding.start.Steadfast (scriptActions script.root) :=
  (walk_script script.root).steadfast .start (nodup_siteIds h) fun _ _ _ => rfl

theorem retains (h : ofTokens file tokens = .ok script) {done middle others : List Action}
    (hsplit : scriptActions script.root = done ++ middle ++ others) :
    (Binding.start.run done).Retains (Binding.start.run (done ++ middle)) := by
  have hsteadfast := steadfast h
  rw [hsplit, Binding.steadfast_append, Binding.steadfast_append] at hsteadfast
  rw [Binding.run_append]
  exact ⟨Binding.appends_run middle, (Binding.extends_run middle).entry, hsteadfast.1.2.recalls⟩

/-- Binding comes to every node of a script, and it goes through every construct in
one stretch.  It leaves the construct with the open scopes with which it has come,
among which that of the script always is, and on the way no symbol, scope, name or
reference is taken back. -/
theorem constructs_bracketed (h : ofTokens file tokens = .ok script) :
    (∀ node, Node.Inside node (.block script.root) → node.Bound script.root) ∧
      ∀ done construct, Reached script.root done construct →
        (∃ others, scriptActions script.root = done ++ construct.actions ++ others) ∧
          (Binding.start.run done).Brackets construct.actions := by
  refine ⟨fun node => Node.bound_of_inside, ?_⟩
  intro done construct hreached
  obtain ⟨before, after, rfl, hbody⟩ := hreached.stretch
  have hscript : scriptActions script.root =
      .enter .script :: before ++ construct.actions ++ (after ++ [.leave]) := by
    rw [scriptActions, hbody]
    simp [within]
  refine ⟨⟨_, hscript⟩, ?_, ?_, ?_⟩
  · exact construct.balanced.path_run _
  · intro inner others hsplit
    refine ⟨construct.balanced.path_suffix _ hsplit, ?_⟩
    have hmoment : enterBody script.root.body ++ stmtActions script.root.body =
        before ++ inner ++ (others ++ after) := by
      rw [hbody, hsplit]
      simp
    rw [← Binding.run_append]
    exact Binding.rooted_script hmoment
  · intro inner middle others hsplit
    have hmoment : scriptActions script.root =
        (.enter .script :: before ++ inner) ++ middle ++ (others ++ (after ++ [.leave])) := by
      rw [hscript, hsplit]
      simp
    rw [← Binding.run_append, ← Binding.run_append, ← List.append_assoc]
    exact retains h hmoment

/-- In `y = x => x` the scope of the script is the innermost again after the function,
and `y` still stands for the symbol that it got before. -/
theorem constructs_of_assigned_arrow :
    ∃ script, ofTokens "arrow.js"
        [⟨.identifier, "y", ⟨0, 1⟩, false⟩, ⟨.assignment, "=", ⟨2, 3⟩, false⟩,
          ⟨.identifier, "x", ⟨4, 5⟩, false⟩, ⟨.arrow, "=>", ⟨6, 8⟩, false⟩,
          ⟨.identifier, "x", ⟨9, 10⟩, false⟩] = .ok script ∧
      ∃ done parameters body, Reached script.root done (.function parameters body) ∧
        ((Binding.start.run done).run (Construct.function parameters body).actions).path = [0] ∧
        ((Binding.start.run done).run
          (Construct.function parameters body).actions).model.resolve? 1 = some 0 := by
  let done : List Action := [.enter .script, .write ⟨"y", 1⟩ 0]
  let parameters : List Parameter := [⟨.name ⟨"x", 2⟩, none, false, ⟨4, 5⟩⟩]
  let body : Block := ⟨4, [.result (some (.symbol ⟨"x", 3⟩ ⟨9, 10⟩)) ⟨9, 10⟩], ⟨9, 10⟩⟩
  let value : Expr := .function none parameters body true ⟨4, 10⟩
  let assigned : Expr :=
    .assignment ⟨.assignment, "=", ⟨2, 3⟩, false⟩ (.symbol ⟨"y", 1⟩ ⟨0, 1⟩) value ⟨0, 10⟩
  let root : Block := ⟨0, [.expression assigned ⟨0, 10⟩], ⟨0, 10⟩⟩
  have hreached : Reached root done (.function parameters body) := by
    have hstmt : Reached root [.enter .script] (.stmt (.expression assigned ⟨0, 10⟩)) :=
      @Reached.top root [] [] _ rfl
    have hassigned : Reached root [.enter .script] (.expr assigned) :=
      @Reached.deeper root _ _ _ [] [] hstmt rfl
    have hvalue : Reached root done (.expr value) :=
      @Reached.deeper root _ _ _ [.own (.write ⟨"y", 1⟩ 0)] [] hassigned rfl
    exact @Reached.deeper root _ _ _ [] [] hvalue rfl
  have hread : ofTokens "arrow.js"
      [⟨.identifier, "y", ⟨0, 1⟩, false⟩, ⟨.assignment, "=", ⟨2, 3⟩, false⟩,
        ⟨.identifier, "x", ⟨4, 5⟩, false⟩, ⟨.arrow, "=>", ⟨6, 8⟩, false⟩,
        ⟨.identifier, "x", ⟨9, 10⟩, false⟩] = .ok ⟨root, 5⟩ := rfl
  have hbrackets := ((constructs_bracketed hread).2 done _ hreached).2
  refine ⟨_, hread, done, parameters, body, hreached, ?_, ?_⟩
  · rw [hbrackets.path]
    rfl
  · have hsplit : (Construct.function parameters body).actions =
        [] ++ (Construct.function parameters body).actions ++ [] := by simp
    exact (hbrackets.retains hsplit).recalls 1 0 (by decide)

end Script

end Script

end ScriptKinds
