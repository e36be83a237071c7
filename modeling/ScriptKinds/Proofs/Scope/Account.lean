import ScriptKinds.Proofs.Scope.Frame

/-!
Accounts of binding.

An account of some actions says for which occurrences they record references,
and what becomes of every occurrence among them.  Accounts of parts make up an
account of the whole, and every walk has an account.
-/

namespace ScriptKinds

/-- A symbol that an occurrence may stand for: it has the name of the occurrence
and, if the occurrence is a declaration, the scope to which that belongs. -/
def Site.StandsFor (site : Site) (model : Model) (id : SymbolId) : Prop :=
  ∃ symbol, model.symbol? id = some symbol ∧ symbol.name = site.name.name ∧
    (site.role.declares → site.home? = some symbol.scope)

/-- A use of a name means a symbol if the search through the open scopes in a
model finds that one. -/
def Site.Means (site : Site) (all : List Site) (model : Model) (id? : Option SymbolId) : Prop :=
  ¬site.role.declares → Placed all site.name.name → site.lookup? model = id?

/-- Some actions write `undefined` while no open scope has a symbol of that
name. -/
def Ignored (binding : Binding) (actions : List Action) (site : Site) : Prop :=
  site.name.name = "undefined" ∧
    ∃ before position after, actions = before ++ .write site.name position :: after ∧
      (binding.run before).path = site.scopes.map OpenScope.id ∧
      (binding.run before).lookup? site.name.name = none

/-- The account of some actions with their occurrences, which are among those of
a whole script, in view of the model in which the script ends. -/
structure Accounts (all : List Site) (model : Model) (binding : Binding) (actions : List Action)
    (sites : List Site) : Prop where
  recorded : ∀ {node symbol}, (binding.run actions).model.resolve? node = some symbol →
    binding.model.resolve? node = some symbol ∨
      ∃ site ∈ all, site.name.id = node ∧ site.StandsFor (binding.run actions).model symbol ∧
        site.Means all model (some symbol)
  unresolved : ∀ name ∈ (binding.run actions).unresolved,
    name ∈ binding.unresolved ∨
      ∃ site ∈ all, site.name = name ∧ site.role = .read ∧
        site.Means all model (model.symbolIn? name.name 0)
  declared : ∀ site ∈ sites, site.role.declares →
    ((binding.run actions).model.resolve? site.name.id).isSome
  read : ∀ site ∈ sites, site.role = .read →
    ((binding.run actions).model.resolve? site.name.id).isSome ∨
      site.name ∈ (binding.run actions).unresolved
  written : ∀ site ∈ sites, site.role = .write →
    ((binding.run actions).model.resolve? site.name.id).isSome ∨
      Ignored binding actions site ∧ site.Means all model none

variable {binding later : Binding} {known : List Declaration} {scopes : List OpenScope}
variable {next : ScopeId} {actions others : List Action} {all sites otherSites : List Site}
variable {model : Model}

theorem Site.StandsFor.mono {site : Site} {id : SymbolId} (h : site.StandsFor binding.model id)
    (hextends : binding.Extends later) : site.StandsFor later.model id := by
  obtain ⟨symbol, hsymbol, hname, hscope⟩ := h
  exact ⟨symbol, hextends.symbol hsymbol, hname, hscope⟩

theorem Site.declares_of_home? {site : Site} {id : ScopeId} (h : site.home? = some id) :
    site.role.declares := by
  unfold Site.home? at h
  cases hrole : site.role with
  | read | write =>
      rw [hrole] at h
      cases h
  | hoisted | bound => rfl

theorem Binding.Sound.lookup? (h : binding.Sound) {name : String} {id : SymbolId}
    (hlookup : binding.lookup? name = some id) :
    ∃ symbol, binding.model.symbol? id = some symbol ∧ symbol.name = name := by
  obtain ⟨before, scope, after, _, hentry, _⟩ := List.findSome?_eq_some_iff.mp hlookup
  obtain ⟨symbol, hsymbol, hname, _⟩ := h.entry hentry
  exact ⟨symbol, hsymbol, hname⟩

theorem Final.means (h : Final all model binding scopes)
    (hready : binding.Ready known scopes next) (hopen : scopes ≠ []) {name : Identifier}
    {role : Role} {id? : Option SymbolId}
    (hid : Placed all name.name →
      (binding.lookup? name.name).or (model.symbolIn? name.name 0) = id?) :
    Site.Means ⟨name, role, scopes⟩ all model id? := by
  intro _ hplaced
  rw [Site.lookup?, h.lookup?_eq hplaced hready hopen]
  exact hid hplaced

/-- What is final when the names of a function's body have been declared was final before,
when only its parameters counted. -/
theorem Final.defaults {parameters declarations : List Declaration}
    (h : Final all model ((((binding.enter .function).run (declareAll parameters)).run actions).run
      (declareAll declarations)) (⟨next, .function, none⟩ :: scopes))
    (hready : binding.Ready known scopes next) (hopen : scopes ≠ [])
    (hcovers : Covers sites (some next) parameters)
    (hwalk : Walk (parameters ++ known) (.during next parameters :: scopes) (next + 1) actions
      sites) (hall : sites ⊆ all) :
    Final all model (((binding.enter .function).run (declareAll parameters)).run actions)
      (.during next parameters :: scopes) :=
  h.during (hwalk.ready (hready.enterFunction hopen hcovers)) (hready.next_ne_zero hopen)
    (Walk.present hready) fun _ hplaced hname =>
      hwalk.absent hready hopen hcovers (hplaced.mono hall) hname

namespace Ignored

variable {site : Site}

theorem left (h : Ignored binding actions site) : Ignored binding (actions ++ others) site := by
  obtain ⟨hname, before, position, after, rfl, hpath, hlookup⟩ := h
  refine ⟨hname, before, position, after ++ others, ?_, hpath, hlookup⟩
  rw [List.append_assoc, List.cons_append]

theorem right (h : Ignored (binding.run actions) others site) :
    Ignored binding (actions ++ others) site := by
  obtain ⟨hname, before, position, after, rfl, hpath, hlookup⟩ := h
  rw [← Binding.run_append] at hpath hlookup
  refine ⟨hname, actions ++ before, position, after, ?_, hpath, hlookup⟩
  rw [List.append_assoc]

end Ignored

namespace Accounts

theorem append (h : Accounts all model binding actions sites)
    (h' : Accounts all model (binding.run actions) others otherSites) :
    Accounts all model binding (actions ++ others) (sites ++ otherSites) := by
  have hextends : (binding.run actions).Extends (binding.run (actions ++ others)) := by
    rw [Binding.run_append]
    exact Binding.extends_run others
  constructor
  · intro node symbol hsymbol
    rw [Binding.run_append] at hsymbol
    rcases h'.recorded hsymbol with hbefore | hafter
    · rcases h.recorded hbefore with hfirst | ⟨site, hsite, hid, hstands, hmeans⟩
      · exact .inl hfirst
      · exact .inr ⟨site, hsite, hid, hstands.mono hextends, hmeans⟩
    · rw [← Binding.run_append] at hafter
      exact .inr hafter
  · intro name hname
    rw [Binding.run_append] at hname
    rcases h'.unresolved name hname with hbefore | hafter
    · exact h.unresolved name hbefore
    · exact .inr hafter
  · intro site hsite hrole
    rcases List.mem_append.mp hsite with hfirst | hsecond
    · exact hextends.resolved (h.declared site hfirst hrole)
    · rw [Binding.run_append]
      exact h'.declared site hsecond hrole
  · intro site hsite hrole
    rcases List.mem_append.mp hsite with hfirst | hsecond
    · exact (h.read site hfirst hrole).imp hextends.resolved hextends.unresolved
    · rw [Binding.run_append]
      exact h'.read site hsecond hrole
  · intro site hsite hrole
    rcases List.mem_append.mp hsite with hfirst | hsecond
    · rcases h.written site hfirst hrole with hresolved | ⟨hignored, hmeans⟩
      · exact .inl (hextends.resolved hresolved)
      · exact .inr ⟨hignored.left, hmeans⟩
    · rw [Binding.run_append]
      rcases h'.written site hsecond hrole with hresolved | ⟨hignored, hmeans⟩
      · exact .inl hresolved
      · exact .inr ⟨hignored.right, hmeans⟩

/-- Actions that record nothing, with occurrences that have been declared
before. -/
theorem settled (hreferences : (binding.run actions).model.references = binding.model.references)
    (hunresolved : (binding.run actions).unresolved = binding.unresolved)
    (hsites : ∀ site ∈ sites, site.role.declares ∧
      (binding.model.resolve? site.name.id).isSome) :
    Accounts all model binding actions sites := by
  have hresolve (node : NodeId) :
      (binding.run actions).model.resolve? node = binding.model.resolve? node := by
    unfold Model.resolve?
    rw [hreferences]
  constructor
  · intro node symbol hsymbol
    rw [hresolve] at hsymbol
    exact .inl hsymbol
  · intro name hname
    rw [hunresolved] at hname
    exact .inl hname
  · intro site hsite _
    rw [hresolve]
    exact (hsites site hsite).2
  · intro site hsite hread
    have hdeclares := (hsites site hsite).1
    rw [hread] at hdeclares
    cases hdeclares
  · intro site hsite hwrite
    have hdeclares := (hsites site hsite).1
    rw [hwrite] at hdeclares
    cases hdeclares

theorem still (hreferences : (binding.run actions).model.references = binding.model.references)
    (hunresolved : (binding.run actions).unresolved = binding.unresolved) :
    Accounts all model binding actions [] :=
  settled hreferences hunresolved (List.forall_mem_nil _)

/-- An action that records one reference, for an occurrence that may come
later. -/
theorem record {action : Action} {name : Identifier} {symbol : SymbolId}
    (hresolve : ∀ node, (binding.step action).model.resolve? node =
      if node = name.id then some symbol else binding.model.resolve? node)
    (hunresolved : (binding.step action).unresolved = binding.unresolved)
    (hall : ∃ site ∈ all, site.name = name ∧ site.StandsFor (binding.step action).model symbol ∧
      site.Means all model (some symbol))
    (hsites : ∀ site ∈ sites, site.name = name) : Accounts all model binding [action] sites := by
  have hresolved : ∀ site ∈ sites,
      ((binding.run [action]).model.resolve? site.name.id).isSome := by
    intro site hsite
    change ((binding.step action).model.resolve? site.name.id).isSome
    rw [hresolve, hsites site hsite, if_pos rfl]
    rfl
  constructor
  · intro node found hfound
    change (binding.step action).model.resolve? node = some found at hfound
    rw [hresolve] at hfound
    split at hfound
    · rename_i hnode
      cases hfound
      obtain ⟨site, hsite, hname, hstands⟩ := hall
      exact .inr ⟨site, hsite, by rw [hname, hnode], hstands⟩
    · exact .inl hfound
  · intro other hother
    change other ∈ (binding.step action).unresolved at hother
    rw [hunresolved] at hother
    exact .inl hother
  · exact fun site hsite _ => hresolved site hsite
  · exact fun site hsite _ => .inl (hresolved site hsite)
  · exact fun site hsite _ => .inl (hresolved site hsite)

theorem declareIn {scope : OpenScope} {declaration : Declaration} {action : Action} {site : Site}
    (hready : binding.Ready known scopes next) (hmem : scope ∈ scopes)
    (hdeclarable : Binding.Declarable scope.id declaration)
    (hstep : binding.step action = binding.declareIn scope.id declaration)
    (hall : site ∈ all) (hname : site.name = declaration.name)
    (hhome : site.role.declares → site.home? = some scope.id)
    (hmeans : site.Means all model (some (binding.declared scope.id declaration)))
    (hsites : ∀ site ∈ sites, site.name = declaration.name) :
    Accounts all model binding [action] sites := by
  refine record (fun node => ?_) ?_ ⟨site, hall, hname, ?_, hmeans⟩ hsites
  · rw [hstep, Binding.resolve?_declareIn]
  · rw [hstep, Binding.unresolved_declareIn]
  · obtain ⟨symbol, hsymbol, hsymbolName, hscope⟩ :=
      (hready.declareIn hmem hdeclarable).sound.declared (hready.lt_of_mem hmem)
    rw [hstep]
    refine ⟨symbol, hsymbol, by rw [hname, hsymbolName], fun hdeclares => ?_⟩
    rw [hhome hdeclares, hscope]

theorem entering {scope : OpenScope} {declarations : List Declaration}
    (hready : binding.Ready known (scope :: scopes) next)
    (hcovers : Covers all (some scope.id) declarations) :
    Accounts all model binding (declareAll declarations) [] := by
  induction declarations generalizing binding known with
  | nil => exact still rfl rfl
  | cons declaration others ih =>
      obtain ⟨⟨hkind, site, hsite, hname, hhome⟩, hothers⟩ := List.forall_mem_cons.mp hcovers
      have hdeclarable : Binding.Declarable scope.id declaration :=
        fun himplicit => absurd himplicit hkind
      have hstep : binding.step (.declare declaration) =
          binding.declareIn scope.id declaration := by
        rw [Binding.Step.declare.eq, hready.scopeAt_innermost]
      have hnext := hready.declareIn List.mem_cons_self hdeclarable
      rw [← hstep] at hnext
      have hfirst : Accounts all model binding [.declare declaration] [] :=
        declareIn hready List.mem_cons_self hdeclarable hstep hsite hname (fun _ => hhome)
          (fun hrole => absurd (Site.declares_of_home? hhome) hrole) (List.forall_mem_nil _)
      exact hfirst.append (ih hnext hothers)

theorem refer {name : Identifier} {symbol : SymbolId} {action : Action} {role : Role}
    (hready : binding.Ready known scopes next) (hopen : scopes ≠ [])
    (hfinal : Final all model binding scopes) (hlookup : binding.lookup? name.name = some symbol)
    (hstep : binding.step action = binding.refer name.id symbol) (hrole : ¬role.declares)
    (hall : [⟨name, role, scopes⟩] ⊆ all) :
    Accounts all model binding [action] [⟨name, role, scopes⟩] := by
  have hmeans : Site.Means ⟨name, role, scopes⟩ all model (some symbol) := by
    apply hfinal.means hready hopen
    intro _
    rw [hlookup]
    rfl
  have hstands : Site.StandsFor ⟨name, role, scopes⟩ (binding.step action).model symbol := by
    obtain ⟨found, hfound, hname⟩ := hready.sound.lookup? hlookup
    rw [hstep]
    exact ⟨found, hfound, hname, fun h => absurd h hrole⟩
  refine record (fun node => ?_) ?_ ⟨_, hall (List.mem_singleton_self _), rfl, hstands, hmeans⟩ ?_
  · rw [hstep, Binding.resolve?_refer]
  · rw [hstep]
    rfl
  · intro site hsite
    obtain rfl := List.mem_singleton.mp hsite
    rfl

theorem postpone {name : Identifier} (hready : binding.Ready known scopes next)
    (hopen : scopes ≠ []) (hfinal : Final all model binding scopes)
    (hlookup : binding.lookup? name.name = none) (hall : [⟨name, .read, scopes⟩] ⊆ all) :
    Accounts all model binding [.read name] [⟨name, .read, scopes⟩] := by
  have hrun : binding.run [.read name] =
      { binding with unresolved := name :: binding.unresolved } := (Binding.Step.postpone hlookup).eq
  constructor
  all_goals rw [hrun]
  · exact fun hsymbol => .inl hsymbol
  · intro other hother
    rcases List.mem_cons.mp hother with rfl | hbefore
    · refine .inr ⟨_, hall (List.mem_singleton_self _), rfl, rfl, ?_⟩
      apply hfinal.means hready hopen
      intro _
      rw [hlookup]
      rfl
    · exact .inl hbefore
  · intro site hsite hrole
    obtain rfl := List.mem_singleton.mp hsite
    cases hrole
  · intro site hsite _
    obtain rfl := List.mem_singleton.mp hsite
    exact .inr List.mem_cons_self
  · intro site hsite hrole
    obtain rfl := List.mem_singleton.mp hsite
    cases hrole

theorem ignore {name : Identifier} {position : Nat} (hready : binding.Ready known scopes next)
    (hopen : scopes ≠ []) (hfinal : Final all model binding scopes)
    (hlookup : binding.lookup? name.name = none) (hname : name.name = "undefined") :
    Accounts all model binding [.write name position] [⟨name, .write, scopes⟩] := by
  have hrun : binding.run [.write name position] = binding :=
    (Binding.Step.ignore hlookup hname).eq
  constructor
  all_goals rw [hrun]
  · exact fun hsymbol => .inl hsymbol
  · exact fun other hother => .inl hother
  · intro site hsite hrole
    obtain rfl := List.mem_singleton.mp hsite
    cases hrole
  · intro site hsite hrole
    obtain rfl := List.mem_singleton.mp hsite
    cases hrole
  · intro site hsite _
    obtain rfl := List.mem_singleton.mp hsite
    refine .inr ⟨⟨hname, [], position, [], rfl, hready.path, hlookup⟩, ?_⟩
    apply hfinal.means hready hopen
    intro hplaced
    rw [hname] at hplaced hlookup ⊢
    rw [hlookup, Option.none_or]
    exact hfinal.symbolIn?_undefined hplaced hready hopen hlookup

theorem implicit {name : Identifier} {position : Nat} (hready : binding.Ready known scopes next)
    (hopen : scopes ≠ []) (hbefore : Final all model binding scopes)
    (hafter : Final all model (binding.run [.write name position]) scopes)
    (hlookup : binding.lookup? name.name = none) (hname : name.name ≠ "undefined")
    (hall : [⟨name, .write, scopes⟩] ⊆ all) :
    Accounts all model binding [.write name position] [⟨name, .write, scopes⟩] := by
  have hstep : binding.step (.write name position) =
      binding.declareIn Binding.scriptScope ⟨name, .implicit, position⟩ :=
    (Binding.Step.implicit hlookup hname).eq
  have hmem := hready.script_mem hopen
  refine declareIn hready hmem (fun _ => ⟨rfl, hname⟩) hstep (hall (List.mem_singleton_self _)) rfl
    (fun hrole => absurd hrole Bool.false_ne_true) ?_ ?_
  · apply hbefore.means hready hopen
    intro _
    have hentry : (binding.run [.write name position]).findIn? name.name 0 =
        some (binding.declared Binding.scriptScope ⟨name, .implicit, position⟩) := by
      change (binding.step (.write name position)).findIn? name.name 0 = _
      rw [hstep, Binding.findIn?_declareIn (hready.lt_of_mem hmem), if_pos ⟨rfl, rfl⟩]
    rw [hlookup, Option.none_or]
    exact hafter.script hentry
  · intro site hsite
    obtain rfl := List.mem_singleton.mp hsite
    rfl

theorem reading {name : Identifier} (hready : binding.Ready known scopes next)
    (hopen : scopes ≠ []) (hfinal : Final all model binding scopes)
    (hall : [⟨name, .read, scopes⟩] ⊆ all) :
    Accounts all model binding [.read name] [⟨name, .read, scopes⟩] := by
  cases hlookup : binding.lookup? name.name with
  | none => exact postpone hready hopen hfinal hlookup hall
  | some symbol =>
      exact refer hready hopen hfinal hlookup (Binding.Step.read hlookup).eq Bool.false_ne_true hall

theorem writing {name : Identifier} {position : Nat} (hready : binding.Ready known scopes next)
    (hopen : scopes ≠ []) (hbefore : Final all model binding scopes)
    (hafter : Final all model (binding.run [.write name position]) scopes)
    (hall : [⟨name, .write, scopes⟩] ⊆ all) :
    Accounts all model binding [.write name position] [⟨name, .write, scopes⟩] := by
  cases hlookup : binding.lookup? name.name with
  | none =>
      by_cases hname : name.name = "undefined"
      · exact ignore hready hopen hbefore hlookup hname
      · exact implicit hready hopen hbefore hafter hlookup hname hall
  | some symbol =>
      exact refer hready hopen hbefore hlookup (Binding.Step.write hlookup).eq Bool.false_ne_true
        hall

theorem misplaced {declaration : Declaration} (hready : binding.Ready known scopes next)
    (hopen : scopes ≠ []) (himplicit : declaration.kind ≠ .implicit)
    (hall : [⟨declaration.name, .bound false, scopes⟩] ⊆ all) :
    Accounts all model binding [.ensure .innermost declaration]
      [⟨declaration.name, .bound false, scopes⟩] := by
  obtain ⟨scope, outer, rfl⟩ := List.exists_cons_of_ne_nil hopen
  cases hresolve : binding.model.resolve? declaration.name.id with
  | some symbol =>
      have hstep : binding.run [.ensure .innermost declaration] = binding :=
        (Binding.Step.ensured hresolve).eq
      refine settled (by rw [hstep]) (by rw [hstep]) ?_
      intro site hsite
      obtain rfl := List.mem_singleton.mp hsite
      exact ⟨rfl, Option.isSome_of_eq_some hresolve⟩
  | none =>
      have hstep : binding.step (.ensure .innermost declaration) =
          binding.declareIn scope.id declaration := by
        rw [(Binding.Step.ensure hresolve).eq, hready.scopeAt_innermost]
      refine declareIn hready List.mem_cons_self (fun h => absurd h himplicit) hstep
        (hall (List.mem_singleton_self _)) rfl (fun _ => rfl) (fun hrole => absurd rfl hrole) ?_
      intro site hsite
      obtain rfl := List.mem_singleton.mp hsite
      rfl

theorem within {kind : ScopeKind} (h : Accounts all model (binding.enter kind) actions sites) :
    Accounts all model binding (ScriptKinds.within kind actions) sites := by
  have hfirst : Accounts all model binding [.enter kind] [] := still rfl rfl
  have hlast : Accounts all model (binding.run ([.enter kind] ++ actions)) [.leave] [] :=
    still rfl rfl
  have hwhole := (hfirst.append h).append hlast
  rw [List.append_nil] at hwhole
  exact hwhole

end Accounts

theorem Walk.accounts (h : Walk known scopes next actions sites)
    (hready : binding.Ready known scopes next) (hall : sites ⊆ all)
    (hfinal : Final all model (binding.run actions) scopes) :
    Accounts all model binding actions sites := by
  -- A part is accounted for in view of what comes after it: a model that is final
  -- at the end of the walk was final for every state on the way.
  induction h generalizing binding with
  | nil => exact .still rfl rfl
  | append hfirst hsecond ihfirst ihsecond =>
      obtain ⟨hallFirst, hallSecond⟩ := List.append_subset.mp hall
      rw [Binding.run_append] at hfinal
      have hmiddle := hfirst.ready hready
      exact (ihfirst hready hallFirst (hfinal.before hsecond hmiddle hallSecond)).append
        (ihsecond hmiddle hallSecond hfinal)
  | read hopen => exact .reading hready hopen (hfinal.before (.read hopen) hready hall) hall
  | write hopen => exact .writing hready hopen (hfinal.before (.write hopen) hready hall) hfinal hall
  | @declared known scopes next declaration role hopen hknown hrole =>
      refine .settled rfl rfl ?_
      intro site hsite
      obtain rfl := List.mem_singleton.mp hsite
      refine ⟨?_, hready.knows declaration hknown⟩
      rcases hrole with rfl | rfl <;> rfl
  | @ensured known scopes next place declaration hknown =>
      have hstep : binding.run [.ensure place declaration] = binding :=
        Binding.ensure_eq (hready.knows declaration hknown)
      exact .still (by rw [hstep]) (by rw [hstep])
  | misplaced hopen himplicit himported => exact .misplaced hready hopen himplicit hall
  | block houtermost hinner hcovers hinside ih =>
      rw [Binding.run_block] at hfinal
      have hentered := hready.enterBlock houtermost hcovers
      have hnames : Accounts all model _ _ [] :=
        .entering (hready.enterScope houtermost) (hcovers.mono hall)
      exact .within (hnames.append (ih hentered hall (hfinal.inside (hinside.ready hentered))))
  | function hopen hparameters hcovers hdefaults hinside ihdefaults ihinside =>
      obtain ⟨hallFirst, hallSecond⟩ := List.append_subset.mp hall
      rw [Binding.run_function] at hfinal
      have hentered := hready.enterFunction hopen hparameters
      have hdefaulted := hdefaults.ready hentered
      have hbody := hdefaulted.enterBody hopen hcovers
      have hfinalBody := hfinal.inside (hinside.ready hbody)
      have hfinalDefaults := (hfinalBody.before hinside hbody hallSecond).defaults hready hopen
        hparameters hdefaults hallFirst
      have hnames : Accounts all model (binding.enter .function) _ [] :=
        .entering (hready.enterScope fun hnil => absurd hnil hopen) (hparameters.mono hallFirst)
      have hbodyNames : Accounts all model _ _ [] :=
        .entering (hdefaulted.only hopen none) (hcovers.mono hallSecond)
      rw [List.append_assoc, List.append_assoc]
      exact .within (hnames.append ((ihdefaults hentered hallFirst hfinalDefaults).append
        (hbodyNames.append (ihinside hbody hallSecond hfinalBody))))

end ScriptKinds
