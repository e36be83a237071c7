import Mathlib.Data.List.Nodup
import ScriptKinds.Proofs.Grammar.ScriptNumbers
import ScriptKinds.Proofs.Scope.Account
import ScriptKinds.Proofs.Scope.SiteNames

namespace ScriptKinds

section Numbers

theorem ids_sublist (nodes : List Numbered) :
    ((namesOf nodes).map Identifier.id).Sublist (nodes.map Numbered.id) := by
  induction nodes with
  | nil => exact .slnil
  | cons node others ih =>
      cases node with
      | name occurrence => exact ih.cons_cons _
      | construct id => exact ih.cons _

theorem Script.nodup_siteIds {file : String} {tokens : List Token} {script : Script}
    (h : Script.ofTokens file tokens = .ok script) :
    ((scriptSites script.root).map fun site => site.name.id).Nodup := by
  have hnames := (ids_sublist script.root.numbered).nodup (Script.numbers_nodup h)
  rw [← names_scriptSites, List.map_map] at hnames
  exact hnames

theorem Script.site_eq {file : String} {tokens : List Token} {script : Script}
    (h : Script.ofTokens file tokens = .ok script) {site other : Site}
    (hsite : site ∈ scriptSites script.root) (hother : other ∈ scriptSites script.root)
    (hid : site.name.id = other.name.id) : site = other :=
  List.inj_on_of_nodup_map (Script.nodup_siteIds h) hsite hother hid

end Numbers

section Finish

variable {binding : Binding}

namespace Binding

theorem retry_eq (name : Identifier) : binding.retry name = binding ∨
    ∃ symbol, binding.findIn? name.name scriptScope = some symbol ∧
      binding.retry name = binding.refer name.id symbol := by
  unfold retry
  split
  · exact .inr ⟨_, ‹_›, rfl⟩
  · exact .inl rfl

theorem extends_retry (name : Identifier) : Extends binding (binding.retry name) := by
  rcases retry_eq name with heq | ⟨symbol, _, heq⟩
  · rw [heq]
    exact .refl _
  · rw [heq]
    exact extends_refer _ _

theorem extends_retries (names : List Identifier) :
    Extends binding (names.foldl retry binding) := by
  induction names generalizing binding with
  | nil => exact .refl _
  | cons name others ih => exact (extends_retry name).trans ih

theorem tables_retries (names : List Identifier) :
    (names.foldl retry binding).model.symbols = binding.model.symbols ∧
      (names.foldl retry binding).model.scopes = binding.model.scopes := by
  induction names generalizing binding with
  | nil => exact ⟨rfl, rfl⟩
  | cons name others ih =>
      obtain ⟨hsymbols, hscopes⟩ := @ih (binding.retry name)
      rcases @retry_eq binding name with heq | ⟨symbol, _, heq⟩
      all_goals
        rw [heq] at hsymbols hscopes
        rw [List.foldl_cons, heq]
        exact ⟨hsymbols, hscopes⟩

theorem findIn?_retry (name : Identifier) (other : String) (scope : ScopeId) :
    (binding.retry name).findIn? other scope = binding.findIn? other scope := by
  rcases @retry_eq binding name with heq | ⟨symbol, _, heq⟩
  all_goals rw [heq]
  rfl

theorem resolve?_retries {names : List Identifier} {node : NodeId} {symbol : SymbolId}
    (h : (names.foldl retry binding).model.resolve? node = some symbol) :
    binding.model.resolve? node = some symbol ∨
      ∃ name ∈ names, name.id = node ∧ binding.findIn? name.name scriptScope = some symbol := by
  induction names generalizing binding with
  | nil => exact .inl h
  | cons name others ih =>
      rcases ih h with hbefore | ⟨other, hother, hid, hfind⟩
      · rcases @retry_eq binding name with heq | ⟨found, hfind, heq⟩
        · rw [heq] at hbefore
          exact .inl hbefore
        · rw [heq, resolve?_refer] at hbefore
          split at hbefore
          · rename_i hnode
            cases hbefore
            exact .inr ⟨name, List.mem_cons_self, hnode.symm, hfind⟩
          · exact .inl hbefore
      · rw [findIn?_retry] at hfind
        exact .inr ⟨other, List.mem_cons_of_mem _ hother, hid, hfind⟩

theorem isSome_resolve?_retries {names : List Identifier} {name : Identifier} {symbol : SymbolId}
    (hmem : name ∈ names) (hfind : binding.findIn? name.name scriptScope = some symbol) :
    ((names.foldl retry binding).model.resolve? name.id).isSome := by
  induction names generalizing binding with
  | nil => cases hmem
  | cons first others ih =>
      rcases List.mem_cons.mp hmem with rfl | hother
      · have hretry : binding.retry name = binding.refer name.id symbol := by
          rw [retry, hfind]
        rw [List.foldl_cons, hretry]
        apply (extends_retries others).resolved
        rw [resolve?_refer, if_pos rfl]
        rfl
      · rw [List.foldl_cons]
        exact ih hother (by rw [findIn?_retry, hfind])

theorem symbol?_finish (id : SymbolId) : binding.finish.symbol? id = binding.model.symbol? id := by
  unfold finish Model.symbol?
  rw [(tables_retries _).1]

theorem scope?_finish (id : ScopeId) : binding.finish.scope? id = binding.model.scope? id := by
  unfold finish Model.scope?
  rw [(tables_retries _).2]

end Binding

end Finish

section Script

variable (root : Block)

/-- The state in which the walk through a script ends. -/
def Binding.ofScript : Binding :=
  Binding.start.run (scriptActions root)

theorem ready_script : (Binding.ofScript root).Ready [] [] (0 + opened (scriptActions root)) :=
  (walk_script root).ready Binding.Ready.start

/-- The walk through a script has an account in view of the model in which it
ends itself. -/
theorem accounts_script :
    Accounts (scriptSites root) (Binding.ofScript root).model Binding.start (scriptActions root)
      (scriptSites root) :=
  (walk_script root).accounts Binding.Ready.start (List.Subset.refl _) (Final.self _)

theorem symbol?_bind (id : SymbolId) :
    (Model.bind root).symbol? id = (Binding.ofScript root).model.symbol? id :=
  Binding.symbol?_finish id

theorem symbolIn?_bind (name : String) (scope : ScopeId) :
    (Model.bind root).symbolIn? name scope = (Binding.ofScript root).findIn? name scope := by
  rw [Model.symbolIn?, Model.bind, Binding.scope?_finish]
  rfl

theorem Site.lookup?_bind (site : Site) :
    site.lookup? (Model.bind root) = site.lookup? (Binding.ofScript root).model := by
  have hvisible : OpenScope.visible? (Model.bind root) site.name.name =
      OpenScope.visible? (Binding.ofScript root).model site.name.name := by
    funext scope
    rw [OpenScope.visible?, symbolIn?_bind]
    rfl
  rw [Site.lookup?, Site.lookup?, hvisible]

theorem sound_script : (Binding.ofScript root).Sound :=
  (ready_script root).sound

variable {root}

theorem Site.StandsFor.bind {site : Site} {id : SymbolId}
    (h : site.StandsFor (Binding.ofScript root).model id) :
    site.StandsFor (Model.bind root) id := by
  obtain ⟨symbol, hsymbol, hname, hscope⟩ := h
  exact ⟨symbol, by rw [symbol?_bind, hsymbol], hname, hscope⟩

theorem Site.Means.bind {site : Site} {all : List Site} {id? : Option SymbolId}
    (h : site.Means all (Binding.ofScript root).model id?) :
    site.Means all (Model.bind root) id? := by
  intro hrole hplaced
  rw [Site.lookup?_bind]
  exact h hrole hplaced

/-- Every reference of the finished model stands for an occurrence. -/
theorem recorded_bind {node : NodeId} {symbol : SymbolId}
    (h : (Model.bind root).resolve? node = some symbol) :
    ∃ site ∈ scriptSites root, site.name.id = node ∧ site.StandsFor (Model.bind root) symbol ∧
      site.Means (scriptSites root) (Model.bind root) (some symbol) := by
  have haccounts := accounts_script root
  rcases Binding.resolve?_retries h with hwalk | ⟨name, hname, hid, hfind⟩
  · rcases haccounts.recorded hwalk with hstart | ⟨site, hsite, hid, hstands, hmeans⟩
    · cases hstart
    · exact ⟨site, hsite, hid, hstands.bind, hmeans.bind⟩
  · rw [List.mem_reverse] at hname
    rcases haccounts.unresolved name hname with hstart | ⟨site, hsite, rfl, hrole, hmeans⟩
    · cases hstart
    · obtain ⟨found, hfound, hfoundName, _⟩ := (sound_script root).entry hfind
      have hstands : site.StandsFor (Binding.ofScript root).model symbol := by
        refine ⟨found, hfound, hfoundName, ?_⟩
        rw [hrole]
        simp [Role.declares]
      have hentry : (Binding.ofScript root).model.symbolIn? site.name.name 0 = some symbol := hfind
      rw [hentry] at hmeans
      exact ⟨site, hsite, hid, hstands.bind, hmeans.bind⟩

theorem resolved_bind {node : NodeId}
    (h : ((Binding.ofScript root).model.resolve? node).isSome) :
    ((Model.bind root).resolve? node).isSome :=
  (Binding.extends_retries _).resolved h

theorem retried_bind {name : Identifier} {symbol : SymbolId}
    (hname : name ∈ (Binding.ofScript root).unresolved)
    (hfind : (Binding.ofScript root).findIn? name.name Binding.scriptScope = some symbol) :
    ((Model.bind root).resolve? name.id).isSome :=
  Binding.isSome_resolve?_retries (List.mem_reverse.mpr hname) hfind

theorem enclosed_bind {site : Site} (hsite : site ∈ scriptSites root) :
    site.Enclosed (Model.bind root) :=
  ((walk_script root).enclosed Binding.Ready.start site hsite).extend (Binding.extends_retries _)

theorem declared_bind {site : Site} (hsite : site ∈ scriptSites root)
    (hrole : site.role.declares) : ((Model.bind root).resolve? site.name.id).isSome :=
  resolved_bind ((accounts_script root).declared site hsite hrole)

theorem written_bind {site : Site} (hsite : site ∈ scriptSites root) (hrole : site.role = .write) :
    ((Model.bind root).resolve? site.name.id).isSome ∨
      Ignored Binding.start (scriptActions root) site ∧
        site.Means (scriptSites root) (Model.bind root) none := by
  rcases (accounts_script root).written site hsite hrole with hresolved | ⟨hignored, hmeans⟩
  · exact .inl (resolved_bind hresolved)
  · exact .inr ⟨hignored, hmeans.bind⟩

end Script

/-- No open scope has a symbol for an occurrence, except one that is nowhere
declared. -/
def Site.Undeclared (site : Site) (model : Model) : Prop :=
  ∀ scope ∈ site.scopes, ∀ symbol ∈ (scope.visible? model site.name.name).bind model.symbol?,
    symbol.kind = .implicit

instance (site : Site) (model : Model) : Decidable (site.Undeclared model) :=
  inferInstanceAs (Decidable (∀ scope ∈ site.scopes,
    ∀ symbol ∈ (scope.visible? model site.name.name).bind model.symbol?, symbol.kind = .implicit))

section Lookup

variable {file : String} {tokens : List Token} {script : Script} {site : Site}

theorem standsFor_bind (h : Script.ofTokens file tokens = .ok script)
    (hsite : site ∈ scriptSites script.root) {symbol : SymbolId}
    (hresolve : (Model.bind script.root).resolve? site.name.id = some symbol) :
    site.StandsFor (Model.bind script.root) symbol ∧
      site.Means (scriptSites script.root) (Model.bind script.root) (some symbol) := by
  obtain ⟨other, hother, hid, hstands⟩ := recorded_bind hresolve
  obtain rfl := Script.site_eq h hother hsite hid
  exact hstands

/-- A read without a symbol finds nothing in the finished tables. -/
theorem unresolved_bind (h : Script.ofTokens file tokens = .ok script)
    (hsite : site ∈ scriptSites script.root) (hrole : site.role = .read)
    (hresolve : (Model.bind script.root).resolve? site.name.id = none) :
    site.Means (scriptSites script.root) (Model.bind script.root) none := by
  have haccounts := accounts_script script.root
  rcases haccounts.read site hsite hrole with hresolved | hunresolved
  · have hsome := resolved_bind hresolved
    rw [hresolve] at hsome
    cases hsome
  · rcases haccounts.unresolved site.name hunresolved with
      hstart | ⟨other, hother, hname, _, hmeans⟩
    · cases hstart
    · obtain rfl := Script.site_eq h hother hsite (by rw [hname])
      cases hfind : (Binding.ofScript script.root).findIn? other.name.name Binding.scriptScope with
      | none =>
          have hentry : (Binding.ofScript script.root).model.symbolIn? other.name.name 0 = none :=
            hfind
          rw [hentry] at hmeans
          exact hmeans.bind
      | some symbol =>
          have hsome := retried_bind hunresolved hfind
          rw [hresolve] at hsome
          cases hsome

/-- Unless a declaration of its name is misplaced, a use of a name stands for
what the finished tables say about the scopes around it. -/
theorem resolve?_eq_lookup? (h : Script.ofTokens file tokens = .ok script)
    (hsite : site ∈ scriptSites script.root) (hrole : ¬site.role.declares)
    (hplaced : Placed (scriptSites script.root) site.name.name) :
    (Model.bind script.root).resolve? site.name.id = site.lookup? (Model.bind script.root) := by
  cases hresolve : (Model.bind script.root).resolve? site.name.id with
  | some symbol => exact ((standsFor_bind h hsite hresolve).2 hrole hplaced).symm
  | none =>
      cases hkind : site.role with
      | read => exact (unresolved_bind h hsite hkind hresolve hrole hplaced).symm
      | write =>
          rcases written_bind hsite hkind with hsome | ⟨_, hmeans⟩
          · rw [hresolve] at hsome
            cases hsome
          · exact (hmeans hrole hplaced).symm
      | hoisted | bound =>
          rw [hkind] at hrole
          exact absurd rfl hrole

theorem Site.mem_of_lookup? {model : Model} {id : SymbolId} (h : site.lookup? model = some id) :
    ∃ scope ∈ site.scopes, scope.visible? model site.name.name = some id ∧
      model.symbolIn? site.name.name scope.id = some id := by
  obtain ⟨before, scope, after, hscopes, hvisible, _⟩ := List.findSome?_eq_some_iff.mp h
  have hmem : scope ∈ site.scopes := by
    rw [hscopes]
    exact List.mem_append_right _ List.mem_cons_self
  refine ⟨scope, hmem, hvisible, ?_⟩
  rw [OpenScope.visible?] at hvisible
  split at hvisible
  · exact hvisible
  · cases hvisible

/-- A symbol that is nowhere declared is one of the script. -/
theorem implicit_bind {root : Block} {name : String} {scope : ScopeId} {id : SymbolId}
    (hentry : (Model.bind root).symbolIn? name scope = some id)
    (himplicit : ∀ symbol, (Model.bind root).symbol? id = some symbol → symbol.kind = .implicit) :
    name ≠ "undefined" ∧ ∃ symbol, (Model.bind root).globalSymbol? name = some symbol ∧
      symbol.kind = .implicit ∧ symbol.id = id := by
  have hfind := hentry
  rw [symbolIn?_bind] at hfind
  have hsound := sound_script root
  obtain ⟨symbol, hsymbol, rfl, rfl⟩ := hsound.entry hfind
  have hid := (hsound.symbol hsymbol).1
  have hkind : symbol.kind = .implicit := by
    apply himplicit
    rw [symbol?_bind, hsymbol]
  obtain ⟨hscope, hname⟩ := hsound.implicit hsymbol hkind
  refine ⟨hname, symbol, ?_, hkind, hid⟩
  rw [hscope] at hentry
  change ((Model.bind root).symbolIn? symbol.name Binding.scriptScope).bind _ = _
  rw [hentry, Option.bind_some, symbol?_bind, hsymbol]

theorem undeclared_write (hsite : site ∈ scriptSites script.root) (hwrite : site.role = .write)
    (hundeclared : site.Undeclared (Model.bind script.root))
    (hresolve : (Model.bind script.root).resolve? site.name.id =
      site.lookup? (Model.bind script.root)) :
    if site.name.name = "undefined" then
      (Model.bind script.root).resolve? site.name.id = none
    else
      ∃ symbol, (Model.bind script.root).globalSymbol? site.name.name = some symbol ∧
        symbol.kind = .implicit ∧
        (Model.bind script.root).resolve? site.name.id = some symbol.id := by
  rw [hresolve]
  cases hlookup : site.lookup? (Model.bind script.root) with
  | none =>
      rcases written_bind hsite hwrite with hsome | ⟨⟨hname, _⟩, _⟩
      · rw [hresolve, hlookup] at hsome
        cases hsome
      · rw [if_pos hname]
  | some id =>
      obtain ⟨scope, hscope, hvisible, hentry⟩ := Site.mem_of_lookup? hlookup
      have himplicit : ∀ symbol, (Model.bind script.root).symbol? id = some symbol →
          symbol.kind = .implicit := by
        intro symbol hsymbol
        apply hundeclared scope hscope symbol
        rw [hvisible]
        exact hsymbol
      obtain ⟨hname, symbol, hglobal, hkind, rfl⟩ := implicit_bind hentry himplicit
      rw [if_neg hname]
      exact ⟨symbol, hglobal, hkind, rfl⟩

/-- Every name in a script is one of the occurrences listed.  One that is used
stands for the symbol of its name in the innermost open scope whose finished
table has one, wherever the name is declared or written.  Without a declaration
a read stands for nothing, and a write for a global that is nowhere declared or,
if the name is `undefined`, for nothing. -/
theorem Script.resolution_of_use (h : Script.ofTokens file tokens = .ok script)
    (hplaced : ∀ site ∈ scriptSites script.root, site.role ≠ .bound false) :
    (scriptSites script.root).map Site.name = namesOf script.root.numbered ∧
      ∀ site ∈ scriptSites script.root, site.role = .read ∨ site.role = .write →
        site.Enclosed (Model.bind script.root) ∧
          (Model.bind script.root).resolve? site.name.id =
            site.lookup? (Model.bind script.root) ∧
          (site.role = .write → site.Undeclared (Model.bind script.root) →
            if site.name.name = "undefined" then
              (Model.bind script.root).resolve? site.name.id = none
            else
              ∃ symbol, (Model.bind script.root).globalSymbol? site.name.name = some symbol ∧
                symbol.kind = .implicit ∧
                (Model.bind script.root).resolve? site.name.id = some symbol.id) := by
  refine ⟨names_scriptSites script.root, ?_⟩
  intro site hsite hrole
  have hdeclares : ¬site.role.declares := by
    rcases hrole with hread | hwrite
    · simp [hread, Role.declares]
    · simp [hwrite, Role.declares]
  have hnamePlaced : Placed (scriptSites script.root) site.name.name :=
    fun other hother _ => hplaced other hother
  have hresolve := resolve?_eq_lookup? h hsite hdeclares hnamePlaced
  refine ⟨enclosed_bind hsite, hresolve, ?_⟩
  intro hwrite hundeclared
  exact undeclared_write hsite hwrite hundeclared hresolve

/-- In `y = x => x` the body of the function reads its parameter, and `y`
becomes a global that is nowhere declared. -/
theorem Script.resolution_of_assigned_arrow :
    ∃ script, Script.ofTokens "arrow.js"
        [⟨.identifier, "y", ⟨0, 1⟩, false⟩, ⟨.assignment, "=", ⟨2, 3⟩, false⟩,
          ⟨.identifier, "x", ⟨4, 5⟩, false⟩, ⟨.arrow, "=>", ⟨6, 8⟩, false⟩,
          ⟨.identifier, "x", ⟨9, 10⟩, false⟩] = .ok script ∧
      (Model.bind script.root).resolve? 3 = some 1 ∧
      ∃ symbol, (Model.bind script.root).globalSymbol? "y" = some symbol ∧
        symbol.kind = .implicit ∧ (Model.bind script.root).resolve? 1 = some symbol.id := by
  let inside : Site := ⟨⟨"x", 3⟩, .read, [⟨1, .function, none⟩, ⟨0, .script, none⟩]⟩
  let outside : Site := ⟨⟨"y", 1⟩, .write, [⟨0, .script, none⟩]⟩
  obtain ⟨script, hread, hplaced, hinside, hlookup, houtside, hundeclared⟩ :
      ∃ script, Script.ofTokens "arrow.js"
          [⟨.identifier, "y", ⟨0, 1⟩, false⟩, ⟨.assignment, "=", ⟨2, 3⟩, false⟩,
            ⟨.identifier, "x", ⟨4, 5⟩, false⟩, ⟨.arrow, "=>", ⟨6, 8⟩, false⟩,
            ⟨.identifier, "x", ⟨9, 10⟩, false⟩] = .ok script ∧
        (∀ site ∈ scriptSites script.root, site.role ≠ .bound false) ∧
        inside ∈ scriptSites script.root ∧
        inside.lookup? (Model.bind script.root) = some 1 ∧
        outside ∈ scriptSites script.root ∧
        outside.Undeclared (Model.bind script.root) := by
    refine ⟨_, rfl, ?_⟩
    decide
  refine ⟨script, hread, ?_, ?_⟩
  · have hresolve := ((Script.resolution_of_use hread hplaced).2 inside hinside (.inl rfl)).2.1
    rw [hlookup] at hresolve
    exact hresolve
  · have hwritten := (Script.resolution_of_use hread hplaced).2 outside houtside (.inr rfl)
    exact hwritten.2.2 rfl hundeclared

end Lookup

end ScriptKinds
