import ScriptKinds.Proofs.Scope.Ready

/-!
What a finished model says about the scopes that are open at some place.

Apart from misplaced declarations, the names of a scope are complete as soon as
its body is entered, and those of the script only grow by names that are
nowhere declared.  So the tables of the finished model answer the same for an
occurrence as the tables at the moment when binding came to it.
-/

namespace ScriptKinds

/-- The symbol of a name in a scope of a model. -/
def Model.symbolIn? (model : Model) (name : String) (scope : ScopeId) : Option SymbolId :=
  (model.scope? scope).bind fun found => found.find? name

/-- The symbol of a name in an open scope, if the name counts there. -/
def OpenScope.visible? (model : Model) (name : String) (scope : OpenScope) : Option SymbolId :=
  if scope.only?.all (·.contains name) then model.symbolIn? name scope.id else none

/-- The symbol of an occurrence in the innermost open scope where its name
counts and has one. -/
def Site.lookup? (site : Site) (model : Model) : Option SymbolId :=
  site.scopes.findSome? (OpenScope.visible? model site.name.name)

/-- No declaration of a name is misplaced. -/
def Placed (sites : List Site) (name : String) : Prop :=
  ∀ site ∈ sites, site.name.name = name → site.role ≠ .bound false

theorem Placed.mono {sites others : List Site} {name : String} (h : Placed others name)
    (hsites : sites ⊆ others) : Placed sites name :=
  fun site hsite => h site (hsites hsite)

variable {binding later : Binding} {known : List Declaration} {scopes : List OpenScope}
variable {next : ScopeId} {actions others : List Action} {all sites otherSites : List Site}
variable {name : String} {id : ScopeId}

namespace Binding

theorem scopeAt_declareIn (scope : ScopeId) (declaration : Declaration) :
    (binding.declareIn scope declaration).scopeAt .innermost = binding.scopeAt .innermost := by
  unfold scopeAt
  rw [path_declareIn]

theorem size_declareAll (declarations : List Declaration) :
    (binding.run (declareAll declarations)).model.scopes.size = binding.model.scopes.size := by
  induction declarations generalizing binding with
  | nil => rfl
  | cons declaration others ih => exact ih.trans (size_declareIn _ _)

/-- Declarations change nothing but the meaning of their names in the innermost
scope. -/
theorem findIn?_declareAll (hscope : binding.scopeAt .innermost < binding.model.scopes.size)
    {declarations : List Declaration}
    (hother : id ≠ binding.scopeAt .innermost ∨
      name ∉ declarations.map fun declaration => declaration.name.name) :
    (binding.run (declareAll declarations)).findIn? name id = binding.findIn? name id := by
  induction declarations generalizing binding with
  | nil => rfl
  | cons declaration others ih =>
      have hnext := @ih (binding.declareIn (binding.scopeAt .innermost) declaration)
      rw [scopeAt_declareIn, size_declareIn] at hnext
      refine (hnext hscope ?_).trans ?_
      · exact hother.imp_right fun hmem hothers => hmem (List.mem_cons_of_mem _ hothers)
      · rw [findIn?_declareIn hscope, if_neg]
        rintro ⟨rfl, rfl⟩
        rcases hother with hid | hname
        · exact hid rfl
        · exact hname List.mem_cons_self

theorem isSome_findIn?_declareAll (hscope : binding.scopeAt .innermost < binding.model.scopes.size)
    {declarations : List Declaration}
    (hmem : name ∈ declarations.map fun declaration => declaration.name.name) :
    ((binding.run (declareAll declarations)).findIn? name (binding.scopeAt .innermost)).isSome := by
  induction declarations generalizing binding with
  | nil => cases hmem
  | cons declaration others ih =>
      have hnext := @ih (binding.declareIn (binding.scopeAt .innermost) declaration)
      rw [scopeAt_declareIn, size_declareIn] at hnext
      rcases List.mem_cons.mp hmem with rfl | hothers
      · have hentry : (binding.declareIn (binding.scopeAt .innermost) declaration).findIn?
            declaration.name.name (binding.scopeAt .innermost) =
              some (binding.declared (binding.scopeAt .innermost) declaration) := by
          rw [findIn?_declareIn hscope, if_pos ⟨rfl, rfl⟩]
        exact Option.isSome_of_eq_some ((extends_run (declareAll others)).entry hentry)
      · exact hnext hscope hothers

theorem scopeAt_enter_lt (kind : ScopeKind) :
    (binding.enter kind).scopeAt .innermost < (binding.enter kind).model.scopes.size := by
  change binding.model.scopes.size < (binding.model.scopes.push _).size
  rw [Array.size_push]
  exact Nat.lt_succ_self _

theorem findIn?_enterAll (kind : ScopeKind) {declarations : List Declaration}
    (hother : id ≠ binding.model.scopes.size ∨
      name ∉ declarations.map fun declaration => declaration.name.name) :
    ((binding.enter kind).run (declareAll declarations)).findIn? name id =
      binding.findIn? name id :=
  (findIn?_declareAll (scopeAt_enter_lt kind) hother).trans (findIn?_enter kind name id)

theorem Ready.findIn?_body {scope : OpenScope} {declarations : List Declaration}
    (h : binding.Ready known (scope :: scopes) next) (hother : id ≠ scope.id) :
    (binding.run (declareAll declarations)).findIn? name id = binding.findIn? name id := by
  rw [← h.scopeAt_innermost] at hother
  apply findIn?_declareAll _ (.inl hother)
  rw [h.scopeAt_innermost]
  exact h.lt_of_mem List.mem_cons_self

end Binding

namespace Walk

/-- A walk changes no name in the scopes around it, unless a declaration of the
name is misplaced.  The script may get names that are nowhere declared. -/
theorem frame (h : Walk known scopes next actions sites)
    (hready : binding.Ready known scopes next) (hplaced : Placed sites name) (hid : id < next)
    (hscript : id ≠ 0 ∨ name = "undefined") :
    (binding.run actions).findIn? name id = binding.findIn? name id := by
  -- Scopes around the walk have numbers below `next`, those entered on it do not.
  induction h generalizing binding with
  | nil => rfl
  | append hfirst hsecond ihfirst ihsecond =>
      rw [Binding.run_append]
      have hfirstPlaced := hplaced.mono (List.subset_append_left _ _)
      have hsecondPlaced := hplaced.mono (List.subset_append_right _ _)
      exact (ihsecond (hfirst.ready hready) hsecondPlaced (Nat.lt_add_right _ hid)).trans
        (ihfirst hready hfirstPlaced hid)
  | @read known scopes next read hopen =>
      have hstep := binding.run_cases (.read read)
      generalize binding.run [.read read] = later at hstep ⊢
      cases hstep with
      | read | postpone => rfl
  | @write known scopes next written position hopen =>
      have hstep := binding.run_cases (.write written position)
      generalize binding.run [.write written position] = later at hstep ⊢
      cases hstep with
      | write | ignore => rfl
      | implicit _ hundefined =>
          have hlt := hready.lt_of_mem (hready.script_mem hopen)
          rw [Binding.findIn?_declareIn hlt, if_neg]
          rintro ⟨rfl, rfl⟩
          rcases hscript with hzero | hname
          · exact hzero rfl
          · exact hundefined hname
  | declared hopen hknown hrole => rfl
  | @ensured known scopes next place declaration hknown =>
      change (binding.step (.ensure place declaration)).findIn? name id = _
      rw [Binding.ensure_eq (hready.knows declaration hknown)]
  | @misplaced known scopes next declaration hopen himplicit himported =>
      obtain ⟨scope, outer, rfl⟩ := List.exists_cons_of_ne_nil hopen
      have hstep := binding.run_cases (.ensure .innermost declaration)
      generalize binding.run [.ensure .innermost declaration] = later at hstep ⊢
      cases hstep with
      | ensured => rfl
      | ensure =>
          have hlt := hready.lt_of_mem List.mem_cons_self
          rw [hready.scopeAt_innermost, Binding.findIn?_declareIn hlt, if_neg]
          rintro ⟨_, hname⟩
          exact hplaced _ (List.mem_singleton_self _) hname.symm rfl
  | @block known scopes next kind declarations actions sites houtermost hinner hcovers hinside ih =>
      rw [Binding.run_block]
      have hentered := hready.enterBlock houtermost hcovers
      have hother : id ≠ binding.model.scopes.size := by
        rw [hready.size]
        exact Nat.ne_of_lt hid
      exact (ih hentered hplaced (Nat.lt_add_right 1 hid)).trans
        (Binding.findIn?_enterAll kind (.inl hother))
  | @function known scopes next parameters declarations defaults actions sites otherSites hopen
      hparameters hcovers hdefaults hinside ihdefaults ihinside =>
      rw [Binding.run_function]
      have hfirstPlaced := hplaced.mono (List.subset_append_left sites otherSites)
      have hsecondPlaced := hplaced.mono (List.subset_append_right sites otherSites)
      have hentered := hready.enterFunction hopen hparameters
      have hdefaulted := hdefaults.ready hentered
      have hother : id ≠ binding.model.scopes.size := by
        rw [hready.size]
        exact Nat.ne_of_lt hid
      calc
        _ = _ := ihinside (hdefaulted.enterBody hopen hcovers) hsecondPlaced
          (Nat.lt_add_right _ (Nat.lt_add_right 1 hid))
        _ = _ := hdefaulted.findIn?_body (Nat.ne_of_lt hid)
        _ = _ := ihdefaults hentered hfirstPlaced (Nat.lt_add_right 1 hid)
        _ = _ := Binding.findIn?_enterAll .function (.inl hother)

theorem present {parameters : List Declaration} (hready : binding.Ready known scopes next) :
    ∀ name ∈ parameters.map (fun declaration => declaration.name.name),
      ((((binding.enter .function).run (declareAll parameters)).run actions).findIn? name
        next).isSome := by
  intro name hname
  have hlt : (binding.enter .function).scopeAt .innermost <
      (binding.enter .function).model.scopes.size := Binding.scopeAt_enter_lt .function
  have hscope := Binding.isSome_findIn?_declareAll hlt hname
  have hinnermost : (binding.enter .function).scopeAt .innermost = next := hready.size
  rw [hinnermost] at hscope
  obtain ⟨symbol, hsymbol⟩ := Option.isSome_iff_exists.mp hscope
  exact Option.isSome_of_eq_some ((Binding.extends_run actions).entry hsymbol)

/-- After the defaults of a function, nothing but its parameters is in its
scope. -/
theorem absent {parameters : List Declaration} (hready : binding.Ready known scopes next)
    (hopen : scopes ≠ []) (hcovers : Covers sites (some next) parameters)
    (h : Walk (parameters ++ known) (.during next parameters :: scopes) (next + 1) actions sites)
    (hplaced : Placed sites name)
    (hname : name ∉ parameters.map fun declaration => declaration.name.name) :
    (((binding.enter .function).run (declareAll parameters)).run actions).findIn? name next =
      none := by
  have hnone : binding.findIn? name next = none := by
    rw [Binding.findIn?, Model.scope?, Array.getElem?_eq_none (Nat.le_of_eq hready.size)]
    rfl
  calc
    _ = _ := h.frame (hready.enterFunction hopen hcovers) hplaced (Nat.lt_succ_self next)
      (.inl (hready.next_ne_zero hopen))
    _ = _ := Binding.findIn?_enterAll .function (.inr hname)
    _ = none := hnone

end Walk

/-- A model is final for a state in which some scopes are open: as far as names
without misplaced declarations go, it has what the tables of the state have. -/
structure Final (all : List Site) (model : Model) (binding : Binding) (scopes : List OpenScope) :
    Prop where
  closed : ∀ {name id}, Placed all name → id < binding.model.scopes.size → id ≠ 0 →
    id ∉ scopes.map OpenScope.id → model.symbolIn? name id = binding.findIn? name id
  visible : ∀ {name scope}, Placed all name → scope ∈ scopes → scope.id ≠ 0 →
    scope.visible? model name = binding.findIn? name scope.id
  script : ∀ {name symbol}, binding.findIn? name 0 = some symbol →
    model.symbolIn? name 0 = some symbol
  undefined : Placed all "undefined" → 0 < binding.model.scopes.size →
    model.symbolIn? "undefined" 0 = binding.findIn? "undefined" 0

namespace Final

variable {model : Model}

theorem self (binding : Binding) : Final all binding.model binding [] where
  closed _ _ _ _ := rfl
  visible _ hmem _ := by cases hmem
  script h := h
  undefined _ _ := rfl

theorem before (h : Final all model (binding.run actions) scopes)
    (hwalk : Walk known scopes next actions sites) (hready : binding.Ready known scopes next)
    (hsites : sites ⊆ all) : Final all model binding scopes where
  closed {name id} hplaced hid hzero hclosed := by
    have hsize : id < (binding.run actions).model.scopes.size := by
      rw [(hwalk.ready hready).size]
      rw [hready.size] at hid
      exact Nat.lt_add_right _ hid
    rw [h.closed hplaced hsize hzero hclosed]
    rw [hready.size] at hid
    exact hwalk.frame hready (hplaced.mono hsites) hid (.inl hzero)
  visible {name scope} hplaced hmem hzero := by
    have hid := hready.lt_of_mem hmem
    rw [hready.size] at hid
    rw [h.visible hplaced hmem hzero]
    exact hwalk.frame hready (hplaced.mono hsites) hid (.inl hzero)
  script hsymbol := h.script ((Binding.extends_run actions).entry hsymbol)
  undefined hplaced hsize := by
    rw [hready.size] at hsize
    rw [h.undefined hplaced]
    · exact hwalk.frame hready (hplaced.mono hsites) hsize (.inr rfl)
    · rw [(hwalk.ready hready).size]
      exact Nat.lt_add_right _ hsize

theorem ne_of_mem {scope other : OpenScope} (hready : binding.Ready known (scope :: scopes) next)
    (hmem : other ∈ scopes) : other.id ≠ scope.id :=
  Nat.ne_of_lt ((List.pairwise_cons.mp hready.descending).1 _ (List.mem_map_of_mem hmem))

theorem inside {id : ScopeId} {kind : ScopeKind} (h : Final all model binding.leave scopes)
    (hready : binding.Ready known (⟨id, kind, none⟩ :: scopes) next) :
    Final all model binding (⟨id, kind, none⟩ :: scopes) where
  closed hplaced hid hzero hclosed :=
    h.closed hplaced hid hzero fun hmem => hclosed (List.mem_cons_of_mem _ hmem)
  visible {name scope} hplaced hmem hzero := by
    rcases List.mem_cons.mp hmem with rfl | hother
    · refine h.closed hplaced (hready.lt_of_mem List.mem_cons_self) hzero fun hagain => ?_
      obtain ⟨other, hother, hid⟩ := List.mem_map.mp hagain
      exact ne_of_mem hready hother hid
    · exact h.visible hplaced hother hzero
  script := h.script
  undefined := h.undefined

/-- Before the names of a function's body are declared, only those of its
parameters count. -/
theorem during {id : ScopeId} {parameters declarations : List Declaration}
    (h : Final all model (binding.run (declareAll declarations)) (⟨id, .function, none⟩ :: scopes))
    (hready : binding.Ready known (.during id parameters :: scopes) next) (hzero : id ≠ 0)
    (hpresent : ∀ name ∈ parameters.map (fun declaration => declaration.name.name),
      (binding.findIn? name id).isSome)
    (habsent : ∀ name, Placed all name →
      name ∉ parameters.map (fun declaration => declaration.name.name) →
      binding.findIn? name id = none) :
    Final all model binding (.during id parameters :: scopes) where
  closed {name other} hplaced hother hzero' hclosed := by
    have hne : other ≠ id := fun heq => hclosed (List.mem_cons.mpr (.inl heq))
    rw [← hready.findIn?_body hne]
    apply h.closed hplaced _ hzero' hclosed
    rw [Binding.size_declareAll]
    exact hother
  visible {name scope} hplaced hmem hzero' := by
    rcases List.mem_cons.mp hmem with rfl | hother
    · have hentry : model.symbolIn? name id =
          (binding.run (declareAll declarations)).findIn? name id :=
        h.visible hplaced List.mem_cons_self hzero
      by_cases hname : name ∈ parameters.map fun declaration => declaration.name.name
      · obtain ⟨symbol, hsymbol⟩ := Option.isSome_iff_exists.mp (hpresent name hname)
        have hcounts : (parameters.map fun declaration => declaration.name.name).contains name :=
          List.contains_iff_mem.mpr hname
        rw [OpenScope.visible?, OpenScope.during, Option.all_some, if_pos hcounts, hentry, hsymbol]
        exact (Binding.extends_run _).entry hsymbol
      · have hcounts : ¬(parameters.map fun declaration => declaration.name.name).contains name :=
          fun hcontains => hname (List.contains_iff_mem.mp hcontains)
        rw [OpenScope.visible?, OpenScope.during, Option.all_some, if_neg hcounts]
        exact (habsent name hplaced hname).symm
    · rw [h.visible hplaced (List.mem_cons_of_mem _ hother) hzero']
      exact hready.findIn?_body (ne_of_mem hready hother)
  script hsymbol := h.script ((Binding.extends_run _).entry hsymbol)
  undefined hplaced hsize := by
    rw [h.undefined hplaced]
    · exact hready.findIn?_body (Ne.symm hzero)
    · rw [Binding.size_declareAll]
      exact hsize

end Final

section Lookup

variable {model : Model}

/-- A search through the open scopes in a model that has their names, and more
names at most in the scope of the script. -/
theorem findSome?_visible
    (hvisible : ∀ scope ∈ scopes, scope.id ≠ 0 →
      scope.visible? model name = binding.findIn? name scope.id)
    (hentry : ∀ symbol, binding.findIn? name 0 = some symbol → model.symbolIn? name 0 = some symbol)
    (hdescending : (scopes.map OpenScope.id).Pairwise (· > ·))
    (hscript : scopes.getLast? = some ⟨0, .script, none⟩) :
    scopes.findSome? (OpenScope.visible? model name) =
      ((scopes.map OpenScope.id).findSome? (binding.findIn? name)).or (model.symbolIn? name 0) := by
  induction scopes with
  | nil => cases hscript
  | cons scope outer ih =>
      rw [List.map_cons, List.findSome?_cons, List.findSome?_cons]
      cases outer with
      | nil =>
          obtain rfl := Option.some.inj hscript
          have hall :
              OpenScope.visible? model name ⟨0, .script, none⟩ = model.symbolIn? name 0 := rfl
          rw [hall]
          cases hfind : binding.findIn? name 0 with
          | none => cases model.symbolIn? name 0 <;> rfl
          | some symbol =>
              rw [hentry symbol hfind]
              rfl
      | cons next others =>
          obtain ⟨hfirst, hrest⟩ := List.pairwise_cons.mp hdescending
          have hzero : scope.id ≠ 0 :=
            Nat.ne_of_gt (Nat.lt_of_le_of_lt (Nat.zero_le _) (hfirst next.id List.mem_cons_self))
          rw [hvisible scope List.mem_cons_self hzero]
          cases binding.findIn? name scope.id with
          | none =>
              apply ih _ hrest hscript
              exact fun other hmem => hvisible other (List.mem_cons_of_mem _ hmem)
          | some symbol => rfl

theorem Final.lookup?_eq (h : Final all model binding scopes) (hplaced : Placed all name)
    (hready : binding.Ready known scopes next) (hopen : scopes ≠ []) :
    scopes.findSome? (OpenScope.visible? model name) =
      (binding.lookup? name).or (model.symbolIn? name 0) := by
  rw [Binding.lookup?, hready.path]
  apply findSome?_visible
  · exact fun scope hmem hzero => h.visible hplaced hmem hzero
  · exact fun symbol hsymbol => h.script hsymbol
  · exact hready.descending
  · rcases hready.script with hnil | hlast
    · exact absurd hnil hopen
    · exact hlast

theorem Final.symbolIn?_undefined (h : Final all model binding scopes)
    (hplaced : Placed all "undefined") (hready : binding.Ready known scopes next)
    (hopen : scopes ≠ []) (hlookup : binding.lookup? "undefined" = none) :
    model.symbolIn? "undefined" 0 = none := by
  have hscript := hready.script_mem hopen
  have hsize : 0 < binding.model.scopes.size := hready.lt_of_mem hscript
  rw [h.undefined hplaced hsize]
  rw [Binding.lookup?, hready.path, List.findSome?_eq_none_iff] at hlookup
  exact hlookup 0 (List.mem_map_of_mem hscript)

end Lookup

end ScriptKinds
