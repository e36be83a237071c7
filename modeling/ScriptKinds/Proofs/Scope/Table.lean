import ScriptKinds.Proofs.Inference.Widening
import ScriptKinds.Proofs.Scope.Resolution

namespace ScriptKinds

/-- A scope that fits its place in the list of scopes. -/
structure Scope.Regular (id : ScopeId) (scope : Scope) : Prop where
  id_eq : scope.id = id
  outermost : id = 0 → scope.kind = .script ∧ scope.parent? = none
  inner : id ≠ 0 → scope.kind ≠ .script ∧ ∃ parent < id, scope.parent? = some parent
  names : (scope.names.map Prod.fst).Nodup

namespace Scope

variable {names : List (String × SymbolId)} {name : String} {symbol : SymbolId}

theorem lookup_eq_none (h : names.lookup name = none) : name ∉ names.map Prod.fst := by
  induction names with
  | nil => simp
  | cons entry others ih =>
      obtain ⟨key, value⟩ := entry
      rw [List.lookup_cons] at h
      split at h
      · cases h
      · rename_i hkey
        simp only [List.map_cons, List.mem_cons, not_or]
        exact ⟨beq_eq_false_iff_ne.mp hkey, ih h⟩

theorem lookup_eq_some_iff (hnodup : (names.map Prod.fst).Nodup) :
    names.lookup name = some symbol ↔ (name, symbol) ∈ names := by
  induction names with
  | nil => simp
  | cons entry others ih =>
      obtain ⟨key, value⟩ := entry
      obtain ⟨hfirst, hothers⟩ := List.nodup_cons.mp hnodup
      by_cases hkey : name = key
      · subst hkey
        have hnot : (name, symbol) ∉ others :=
          fun hmem => hfirst (List.mem_map.mpr ⟨_, hmem, rfl⟩)
        simp [hnot, eq_comm]
      · simp [List.lookup_cons, beq_eq_false_iff_ne.mpr hkey, hkey, ih hothers]

theorem bindName_of_new (h : name ∉ names.map Prod.fst) :
    bindName name symbol names = names ++ [(name, symbol)] := by
  induction names with
  | nil => rfl
  | cons entry others ih =>
      simp only [List.map_cons, List.mem_cons, not_or] at h
      rw [bindName, if_neg (by simpa using h.1), ih h.2, List.cons_append]

theorem nodup_bindName (hnodup : (names.map Prod.fst).Nodup)
    (hnew : names.lookup name = none) : ((bindName name symbol names).map Prod.fst).Nodup := by
  have habsent := lookup_eq_none hnew
  rw [bindName_of_new habsent, List.map_append, List.nodup_append]
  refine ⟨hnodup, List.nodup_singleton _, ?_⟩
  intro key hkey other hother heq
  obtain rfl := List.mem_singleton.mp hother
  exact habsent (heq ▸ hkey)

theorem Regular.find?_iff {id : ScopeId} {scope : Scope} (h : scope.Regular id) :
    scope.find? name = some symbol ↔ (name, symbol) ∈ scope.names :=
  lookup_eq_some_iff h.names

theorem Regular.declare {id : ScopeId} {scope : Scope} (h : scope.Regular id)
    (hnew : scope.find? name = none) : (scope.declare name symbol).Regular id where
  id_eq := h.id_eq
  outermost := h.outermost
  inner := h.inner
  names := nodup_bindName h.names hnew

end Scope

/-- All scopes of a model fit their places. -/
def Model.Regular (model : Model) : Prop :=
  ∀ id scope, model.scope? id = some scope → scope.Regular id

namespace Binding

variable {binding later : Binding}

theorem regular_start : start.model.Regular := by
  intro id scope h
  cases h

theorem Regular.enter (h : binding.model.Regular) {kind : ScopeKind}
    (houtermost : binding.model.scopes.size = 0 → kind = .script ∧ binding.path.head? = none)
    (hinner : binding.model.scopes.size ≠ 0 → kind ≠ .script ∧
      ∃ parent < binding.model.scopes.size, binding.path.head? = some parent) :
    (binding.enter kind).model.Regular := by
  intro id scope hscope
  rw [scope?_enter] at hscope
  split at hscope
  · rename_i hid
    cases hscope
    rw [← hid] at houtermost hinner
    exact ⟨hid.symm, houtermost, hinner, List.nodup_nil⟩
  · exact h id scope hscope

theorem Regular.declareIn (h : binding.model.Regular) (scope : ScopeId)
    (declaration : Declaration) : (binding.declareIn scope declaration).model.Regular := by
  unfold Binding.declareIn
  split
  · exact h
  · rename_i hnew
    intro id found hfound
    change (binding.addSymbol scope declaration).model.scope? id = some found at hfound
    rw [scope?_addSymbol] at hfound
    split at hfound
    · rename_i hid
      obtain ⟨old, hold, rfl⟩ := Option.map_eq_some_iff.mp hfound
      apply (h id old hold).declare
      subst hid
      rw [findIn?, hold] at hnew
      exact hnew
    · exact h id found hfound

theorem Step.regular {action : Action} (h : Step binding action later)
    (hregular : binding.model.Regular) (hinside : ∀ kind, action ≠ .enter kind) :
    later.model.Regular := by
  cases h with
  | enter => exact absurd rfl (hinside _)
  | declare | ensure | implicit => exact Regular.declareIn hregular _ _
  | leave | ensured | read | postpone | write | ignore => exact hregular

theorem Regular.declareAll (h : binding.model.Regular) (declarations : List Declaration) :
    (binding.run (declareAll declarations)).model.Regular := by
  induction declarations generalizing binding with
  | nil => exact h
  | cons declaration others ih => exact ih (Regular.declareIn h _ declaration)

end Binding

section Walks

variable {known : List Declaration} {scopes : List OpenScope} {next : ScopeId}
variable {actions : List Action} {sites : List Site} {binding : Binding}

theorem Binding.Ready.regular_enter (hready : binding.Ready known scopes next)
    (h : binding.model.Regular) {kind : ScopeKind}
    (houtermost : scopes = [] → next = 0 ∧ kind = .script)
    (hinner : scopes ≠ [] → kind ≠ .script) : (binding.enter kind).model.Regular := by
  have hhead : binding.path.head? = innermostOf? scopes := by
    rw [hready.path, List.head?_map]
    rfl
  apply Binding.Regular.enter h
  all_goals
    rw [hready.size, hhead]
    intro hnext
  · cases scopes with
    | nil => exact ⟨(houtermost rfl).2, rfl⟩
    | cons scope outer => exact absurd hnext (hready.next_ne_zero (List.cons_ne_nil _ _))
  · cases scopes with
    | nil => exact absurd (houtermost rfl).1 hnext
    | cons scope outer =>
        have hlt := hready.lt_of_mem List.mem_cons_self
        rw [hready.size] at hlt
        exact ⟨hinner (List.cons_ne_nil _ _), scope.id, hlt, rfl⟩

theorem Walk.regular (h : Walk known scopes next actions sites)
    (hready : binding.Ready known scopes next) (hregular : binding.model.Regular) :
    (binding.run actions).model.Regular := by
  induction h generalizing binding with
  | nil => exact hregular
  | append hfirst hsecond ihfirst ihsecond =>
      rw [Binding.run_append]
      exact ihsecond (hfirst.ready hready) (ihfirst hready hregular)
  | read | write | ensured | misplaced =>
      exact (binding.run_cases _).regular hregular nofun
  | declared => exact hregular
  | @block known scopes next kind declarations actions sites houtermost hinner hcovers hinside ih =>
      rw [Binding.run_block]
      have hentered := hready.regular_enter hregular houtermost hinner
      exact ih (hready.enterBlock houtermost hcovers) (Binding.Regular.declareAll hentered _)
  | @function known scopes next parameters declarations defaults actions sites otherSites hopen
      hparameters hcovers hdefaults hinside ihdefaults ihinside =>
      rw [Binding.run_function]
      have hentered : (binding.enter .function).model.Regular := by
        apply hready.regular_enter hregular
        · intro hnil
          exact absurd hnil hopen
        · intro _
          decide
      have hdefaulted := ihdefaults (hready.enterFunction hopen hparameters)
        (Binding.Regular.declareAll hentered _)
      have hbody := (hdefaults.ready (hready.enterFunction hopen hparameters)).enterBody hopen
        hcovers
      exact ihinside hbody (Binding.Regular.declareAll hdefaulted _)

end Walks

/-- The lists of symbols and scopes, the tables of names and the references of
a model agree. -/
structure Model.Tabled (model : Model) : Prop where
  symbol_id : ∀ {id symbol}, model.symbol? id = some symbol → symbol.id = id
  regular : model.Regular
  script : (model.scope? 0).isSome
  declared : ∀ {id symbol}, model.symbol? id = some symbol →
    ∃ scope, model.scope? symbol.scope = some scope ∧ (symbol.name, id) ∈ scope.names
  entry : ∀ {id scope name symbolId}, model.scope? id = some scope →
    (name, symbolId) ∈ scope.names →
      ∃ symbol, model.symbol? symbolId = some symbol ∧ symbol.name = name ∧ symbol.scope = id
  reference : ∀ {node id}, model.resolve? node = some id → id < model.symbols.size
  implicit : ∀ {id symbol}, model.symbol? id = some symbol → symbol.kind = .implicit →
    symbol.scope = 0

/-- What a model answers about a name is what its list of symbols says. -/
structure Model.Answers (model : Model) : Prop where
  /-- A name stands for one symbol in a scope. -/
  unique : ∀ {id other symbol otherSymbol}, model.symbol? id = some symbol →
    model.symbol? other = some otherSymbol → symbol.name = otherSymbol.name →
      symbol.scope = otherSymbol.scope → id = other
  global : ∀ name symbol, model.globalSymbol? name = some symbol ↔
    symbol ∈ model.symbols ∧ symbol.name = name ∧ symbol.scope = 0
  named : ∀ name symbol, symbol ∈ model.symbolsNamed name ↔
    symbol ∈ model.symbols ∧ symbol.name = name
  one_per_scope : ∀ name, (model.symbolsNamed name).Pairwise fun symbol other =>
    symbol.scope ≠ other.scope

namespace Model.Tabled

variable {model wide : Model}

theorem find?_iff (h : model.Tabled) {id : ScopeId} {scope : Scope}
    (hscope : model.scope? id = some scope) {name : String} {symbolId : SymbolId} :
    scope.find? name = some symbolId ↔
      ∃ symbol, model.symbol? symbolId = some symbol ∧ symbol.name = name ∧ symbol.scope = id := by
  rw [(h.regular id scope hscope).find?_iff]
  constructor
  · exact h.entry hscope
  · rintro ⟨symbol, hsymbol, rfl, rfl⟩
    obtain ⟨found, hfound, hmem⟩ := h.declared hsymbol
    rw [hscope] at hfound
    cases hfound
    exact hmem

theorem unique (h : model.Tabled) {id other : SymbolId} {symbol otherSymbol : Symbol}
    (hsymbol : model.symbol? id = some symbol) (hother : model.symbol? other = some otherSymbol)
    (hname : symbol.name = otherSymbol.name) (hscope : symbol.scope = otherSymbol.scope) :
    id = other := by
  obtain ⟨scope, hfound, _⟩ := h.declared hsymbol
  have hfirst := (h.find?_iff hfound).mpr ⟨symbol, hsymbol, rfl, rfl⟩
  have hsecond := (h.find?_iff hfound).mpr ⟨otherSymbol, hother, hname.symm, hscope.symm⟩
  rw [hfirst] at hsecond
  exact Option.some.inj hsecond

theorem mem_symbols {symbol : Symbol} :
    symbol ∈ model.symbols ↔ ∃ id, model.symbol? id = some symbol :=
  Array.mem_iff_getElem?

theorem globalSymbol?_iff (h : model.Tabled) (name : String) (symbol : Symbol) :
    model.globalSymbol? name = some symbol ↔
      symbol ∈ model.symbols ∧ symbol.name = name ∧ symbol.scope = 0 := by
  obtain ⟨script, hscript⟩ := Option.isSome_iff_exists.mp h.script
  rw [globalSymbol?, hscript, Option.bind_some, Option.bind_eq_some_iff, mem_symbols]
  constructor
  · rintro ⟨id, hfind, hsymbol⟩
    obtain ⟨found, hfound, hname, hscope⟩ := (h.find?_iff hscript).mp hfind
    rw [hsymbol] at hfound
    cases hfound
    exact ⟨⟨id, hsymbol⟩, hname, hscope⟩
  · rintro ⟨⟨id, hsymbol⟩, hname, hscope⟩
    exact ⟨id, (h.find?_iff hscript).mpr ⟨symbol, hsymbol, hname, hscope⟩, hsymbol⟩

/-- Two symbols of one name at different places of the list are in different
scopes. -/
theorem pairwise_symbolsNamed (h : model.Tabled) (name : String) :
    (model.symbolsNamed name).Pairwise fun symbol other => symbol.scope ≠ other.scope := by
  rw [symbolsNamed, List.pairwise_filter, List.pairwise_iff_getElem]
  intro i j hi hj hlt hfirst hsecond hscope
  have hlist (k : Nat) (hk : k < model.symbols.toList.length) :
      model.symbol? k = some model.symbols.toList[k] := by
    rw [symbol?, ← Array.getElem?_toList, List.getElem?_eq_getElem hk]
  have hname := (beq_iff_eq.mp hfirst).trans (beq_iff_eq.mp hsecond).symm
  exact Nat.ne_of_lt hlt (h.unique (hlist i hi) (hlist j hj) hname hscope)

theorem answers (h : model.Tabled) : model.Answers where
  unique := h.unique
  global := h.globalSymbol?_iff
  named name symbol := by simp [symbolsNamed]
  one_per_scope := h.pairwise_symbolsNamed

theorem widened (h : model.Tabled) (hwide : model.Widens wide) : wide.Tabled := by
  have hnarrow {id : SymbolId} {symbol : Symbol} (hsymbol : wide.symbol? id = some symbol) :
      ∃ narrow, model.symbol? id = some narrow ∧ narrow.id = symbol.id ∧
        narrow.name = symbol.name ∧ narrow.scope = symbol.scope ∧ narrow.kind = symbol.kind := by
    obtain ⟨kinds, hkinds⟩ := hwide.symbol id
    rw [hsymbol] at hkinds
    obtain ⟨narrow, hfound, rfl⟩ := Option.map_eq_some_iff.mp hkinds.symm
    exact ⟨narrow, hfound, rfl, rfl, rfl, rfl⟩
  constructor
  · intro id symbol hsymbol
    obtain ⟨narrow, hfound, hid, _⟩ := hnarrow hsymbol
    rw [← hid]
    exact h.symbol_id hfound
  · intro id scope hscope
    rw [hwide.scope?_eq] at hscope
    exact h.regular id scope hscope
  · rw [hwide.scope?_eq]
    exact h.script
  · intro id symbol hsymbol
    obtain ⟨narrow, hfound, _, hname, hscope, _⟩ := hnarrow hsymbol
    rw [hwide.scope?_eq, ← hname, ← hscope]
    exact h.declared hfound
  · intro id scope name symbolId hscope hmem
    rw [hwide.scope?_eq] at hscope
    obtain ⟨symbol, hsymbol, hname, hhome⟩ := h.entry hscope hmem
    obtain ⟨kinds, hkinds⟩ := hwide.symbol symbolId
    rw [hsymbol] at hkinds
    exact ⟨_, hkinds, hname, hhome⟩
  · intro node id hresolve
    rw [hwide.resolve?_eq] at hresolve
    have hlt := h.reference hresolve
    obtain ⟨kinds, hkinds⟩ := hwide.symbol id
    rw [symbol?, symbol?, Array.getElem?_eq_getElem hlt] at hkinds
    exact (Array.getElem?_eq_some_iff.mp hkinds).1
  · intro id symbol hsymbol hkind
    obtain ⟨narrow, hfound, _, _, hscope, hsame⟩ := hnarrow hsymbol
    rw [← hscope]
    exact h.implicit hfound (hsame.trans hkind)

end Model.Tabled

section Script

variable (root : Block)

theorem scope?_bind (id : ScopeId) :
    (Model.bind root).scope? id = (Binding.ofScript root).model.scope? id :=
  Binding.scope?_finish id

theorem regular_bind : (Model.bind root).Regular := by
  intro id scope hscope
  rw [scope?_bind] at hscope
  exact (walk_script root).regular .start Binding.regular_start id scope hscope

/-- The first scope of a script is that of the script itself. -/
theorem isSome_scope?_bind : ((Model.bind root).scope? 0).isSome := by
  have hentered : ((Binding.start.enter .script).model.scope? 0).isSome := rfl
  obtain ⟨scope, hscope⟩ := Option.isSome_iff_exists.mp hentered
  have hextends : (Binding.start.enter .script).Extends (Binding.ofScript root) :=
    Binding.extends_run (enterBody root.body ++ stmtActions root.body ++ [.leave])
  obtain ⟨names, hlater⟩ := hextends.scope hscope
  rw [scope?_bind, hlater]
  rfl

theorem tabled_bind : (Model.bind root).Tabled where
  symbol_id hsymbol := by
    rw [symbol?_bind] at hsymbol
    exact ((sound_script root).symbol hsymbol).1
  regular := regular_bind root
  script := isSome_scope?_bind root
  declared {id symbol} hsymbol := by
    rw [symbol?_bind] at hsymbol
    have hfind := ((sound_script root).symbol hsymbol).2
    rw [← symbolIn?_bind, Model.symbolIn?] at hfind
    obtain ⟨scope, hscope, hname⟩ := Option.bind_eq_some_iff.mp hfind
    exact ⟨scope, hscope, ((regular_bind root _ scope hscope).find?_iff).mp hname⟩
  entry {id scope name symbolId} hscope hmem := by
    have hfind : (Model.bind root).symbolIn? name id = some symbolId := by
      rw [Model.symbolIn?, hscope]
      exact ((regular_bind root id scope hscope).find?_iff).mpr hmem
    rw [symbolIn?_bind] at hfind
    rw [symbol?_bind]
    exact (sound_script root).entry hfind
  reference hresolve := by
    obtain ⟨site, _, _, ⟨symbol, hsymbol, _⟩, _⟩ := recorded_bind hresolve
    exact (Array.getElem?_eq_some_iff.mp hsymbol).1
  implicit hsymbol hkind := by
    rw [symbol?_bind] at hsymbol
    exact ((sound_script root).implicit hsymbol hkind).1

/-- The tables of a script agree after binding and still after inference. -/
theorem Model.tables_of_script :
    ((bind root).Tabled ∧ (bind root).Answers) ∧
      (ofScript root).Tabled ∧ (ofScript root).Answers := by
  have hbind := tabled_bind root
  have hscript := hbind.widened (.ofScript root)
  exact ⟨⟨hbind, hbind.answers⟩, hscript, hscript.answers⟩

end Script

end ScriptKinds
