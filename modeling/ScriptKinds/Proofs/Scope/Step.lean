import Mathlib.Logic.Basic
import ScriptKinds.Scope.Binding

namespace ScriptKinds.Binding

variable {binding middle later : Binding}

section Laws

theorem resolve?_refer (node other : NodeId) (symbol : SymbolId) :
    (binding.refer node symbol).model.resolve? other =
      if other = node then some symbol else binding.model.resolve? other := by
  unfold refer Model.resolve?
  rw [Std.TreeMap.getElem?_insert]
  exact if_congr (Std.LawfulEqCmp.compare_eq_iff_eq.trans eq_comm) rfl rfl

theorem scope?_enter (kind : ScopeKind) (id : ScopeId) :
    (binding.enter kind).model.scope? id =
      if id = binding.model.scopes.size then
        some ⟨binding.model.scopes.size, kind, binding.path.head?, []⟩
      else binding.model.scope? id :=
  Array.getElem?_push

theorem findIn?_enter (kind : ScopeKind) (name : String) (scope : ScopeId) :
    (binding.enter kind).findIn? name scope = binding.findIn? name scope := by
  unfold findIn?
  rw [scope?_enter]
  split
  · have hnone : binding.model.scope? scope = none :=
      Array.getElem?_eq_none (Nat.le_of_eq (Eq.symm ‹_›))
    rw [hnone]
    rfl
  · rfl

theorem symbol?_addSymbol (scope : ScopeId) (declaration : Declaration) (id : SymbolId) :
    (binding.addSymbol scope declaration).model.symbol? id =
      if id = binding.model.symbols.size then
        some ⟨binding.model.symbols.size, declaration.name.name, declaration.kind,
          declaration.position, scope, .empty⟩
      else binding.model.symbol? id :=
  Array.getElem?_push

theorem scope?_addSymbol (scope : ScopeId) (declaration : Declaration) (id : ScopeId) :
    (binding.addSymbol scope declaration).model.scope? id =
      if scope = id then
        (binding.model.scope? id).map fun found =>
          found.declare declaration.name.name binding.model.symbols.size
      else binding.model.scope? id :=
  Array.getElem?_modify

theorem findIn?_addSymbol {scope : ScopeId} (hscope : scope < binding.model.scopes.size)
    (declaration : Declaration) (name : String) (other : ScopeId) :
    (binding.addSymbol scope declaration).findIn? name other =
      if other = scope ∧ name = declaration.name.name then some binding.model.symbols.size
      else binding.findIn? name other := by
  unfold findIn?
  rw [scope?_addSymbol]
  by_cases hother : other = scope
  · have hsome : binding.model.scope? scope = some binding.model.scopes[scope] :=
      Array.getElem?_eq_getElem hscope
    subst hother
    rw [if_pos rfl, hsome]
    simp only [Option.map_some, Option.bind_some, Scope.find?_declare, true_and]
  · rw [if_neg fun h => hother h.symm, if_neg fun h => hother h.1]

/-- The symbol that a declaration in a scope stands for. -/
def declared (binding : Binding) (scope : ScopeId) (declaration : Declaration) : SymbolId :=
  (binding.findIn? declaration.name.name scope).getD binding.model.symbols.size

theorem resolve?_declareIn (scope : ScopeId) (declaration : Declaration) (node : NodeId) :
    (binding.declareIn scope declaration).model.resolve? node =
      if node = declaration.name.id then some (binding.declared scope declaration)
      else binding.model.resolve? node := by
  unfold declareIn declared
  split
  · rename_i hfind
    rw [resolve?_refer, hfind]
    rfl
  · rename_i hfind
    rw [resolve?_refer, hfind]
    rfl

theorem findIn?_declareIn {scope : ScopeId} (hscope : scope < binding.model.scopes.size)
    (declaration : Declaration) (name : String) (other : ScopeId) :
    (binding.declareIn scope declaration).findIn? name other =
      if other = scope ∧ name = declaration.name.name then
        some (binding.declared scope declaration)
      else binding.findIn? name other := by
  unfold declareIn declared
  split
  · rename_i hfind
    change binding.findIn? name other = _
    split
    · rename_i heq
      rw [heq.1, heq.2, hfind]
      rfl
    · rfl
  · rename_i hfind
    rw [hfind]
    exact findIn?_addSymbol hscope declaration name other

theorem path_declareIn (scope : ScopeId) (declaration : Declaration) :
    (binding.declareIn scope declaration).path = binding.path := by
  unfold declareIn
  split <;> rfl

theorem unresolved_declareIn (scope : ScopeId) (declaration : Declaration) :
    (binding.declareIn scope declaration).unresolved = binding.unresolved := by
  unfold declareIn
  split <;> rfl

theorem size_declareIn (scope : ScopeId) (declaration : Declaration) :
    (binding.declareIn scope declaration).model.scopes.size = binding.model.scopes.size := by
  unfold declareIn
  split
  · rfl
  · exact Array.size_modify

theorem run_append (binding : Binding) (actions others : List Action) :
    binding.run (actions ++ others) = (binding.run actions).run others :=
  List.foldl_append

end Laws

section Steps

/-- The step that an action takes, and when it takes that one. -/
inductive Step (binding : Binding) : Action → Binding → Prop where
  | enter {kind : ScopeKind} : Step binding (.enter kind) (binding.enter kind)
  | leave : Step binding .leave binding.leave
  | declare {declaration : Declaration} :
      Step binding (.declare declaration)
        (binding.declareIn (binding.scopeAt .innermost) declaration)
  | ensure {place : Place} {declaration : Declaration}
      (h : binding.model.resolve? declaration.name.id = none) :
      Step binding (.ensure place declaration)
        (binding.declareIn (binding.scopeAt place) declaration)
  | ensured {place : Place} {declaration : Declaration} {symbol : SymbolId}
      (h : binding.model.resolve? declaration.name.id = some symbol) :
      Step binding (.ensure place declaration) binding
  | read {name : Identifier} {symbol : SymbolId} (h : binding.lookup? name.name = some symbol) :
      Step binding (.read name) (binding.refer name.id symbol)
  | postpone {name : Identifier} (h : binding.lookup? name.name = none) :
      Step binding (.read name) { binding with unresolved := name :: binding.unresolved }
  | write {name : Identifier} {position : Nat} {symbol : SymbolId}
      (h : binding.lookup? name.name = some symbol) :
      Step binding (.write name position) (binding.refer name.id symbol)
  | ignore {name : Identifier} {position : Nat} (h : binding.lookup? name.name = none)
      (hname : name.name = "undefined") : Step binding (.write name position) binding
  | implicit {name : Identifier} {position : Nat} (h : binding.lookup? name.name = none)
      (hname : name.name ≠ "undefined") :
      Step binding (.write name position)
        (binding.declareIn scriptScope ⟨name, .implicit, position⟩)

theorem step_cases (binding : Binding) (action : Action) :
    Step binding action (binding.step action) := by
  cases action with
  | enter kind => exact .enter
  | leave => exact .leave
  | declare declaration => exact .declare
  | ensure place declaration =>
      rw [step]
      split
      · exact .ensured ‹_›
      · exact .ensure ‹_›
  | read name =>
      rw [step]
      split
      · exact .read ‹_›
      · exact .postpone ‹_›
  | write name position =>
      rw [step]
      split
      · exact .write ‹_›
      · split
        · exact .ignore ‹_› ‹_›
        · exact .implicit ‹_› ‹_›

theorem run_cases (binding : Binding) (action : Action) :
    Step binding action (binding.run [action]) :=
  binding.step_cases action

theorem Step.eq {action : Action} (h : Step binding action later) :
    binding.step action = later := by
  cases h with
  | enter | leave | declare => rfl
  | ensure h | ensured h | read h | postpone h | write h => rw [step, h]
  | ignore h hname =>
      rw [step, h]
      exact if_pos hname
  | implicit h hname =>
      rw [step, h]
      exact if_neg hname

end Steps

section Growth

/-- A later state keeps the scopes, the names in them, the symbols and the reads
without a symbol, and no occurrence that had a symbol is left without one. -/
structure Extends (binding later : Binding) : Prop where
  scope : ∀ {id scope}, binding.model.scope? id = some scope →
    ∃ names, later.model.scope? id = some { scope with names := names }
  entry : ∀ {name scope symbol}, binding.findIn? name scope = some symbol →
    later.findIn? name scope = some symbol
  symbol : ∀ {id symbol}, binding.model.symbol? id = some symbol →
    later.model.symbol? id = some symbol
  resolved : ∀ {node}, (binding.model.resolve? node).isSome → (later.model.resolve? node).isSome
  unresolved : ∀ {name}, name ∈ binding.unresolved → name ∈ later.unresolved

namespace Extends

theorem refl (binding : Binding) : Extends binding binding :=
  ⟨fun {_ scope} h => ⟨scope.names, h⟩, id, id, id, id⟩

theorem trans (hfirst : Extends binding middle) (hsecond : Extends middle later) :
    Extends binding later where
  scope h := by
    obtain ⟨names, hmiddle⟩ := hfirst.scope h
    obtain ⟨names', hlater⟩ := hsecond.scope hmiddle
    exact ⟨names', hlater⟩
  entry h := hsecond.entry (hfirst.entry h)
  symbol h := hsecond.symbol (hfirst.symbol h)
  resolved h := hsecond.resolved (hfirst.resolved h)
  unresolved h := hsecond.unresolved (hfirst.unresolved h)

end Extends

theorem extends_refer (node : NodeId) (symbol : SymbolId) :
    Extends binding (binding.refer node symbol) where
  scope {_ scope} h := ⟨scope.names, h⟩
  entry h := h
  symbol h := h
  resolved h := by
    rw [resolve?_refer]
    split
    · rfl
    · exact h
  unresolved h := h

theorem lt_of_scope? {id : ScopeId} {scope : Scope} (h : binding.model.scope? id = some scope) :
    id < binding.model.scopes.size :=
  (Array.getElem?_eq_some_iff.mp h).1

theorem lt_of_symbol? {id : SymbolId} {symbol : Symbol}
    (h : binding.model.symbol? id = some symbol) : id < binding.model.symbols.size :=
  (Array.getElem?_eq_some_iff.mp h).1

theorem extends_enter (kind : ScopeKind) : Extends binding (binding.enter kind) where
  scope {id scope} h := by
    have hne : id ≠ binding.model.scopes.size := Nat.ne_of_lt (lt_of_scope? h)
    rw [scope?_enter, if_neg hne]
    exact ⟨scope.names, h⟩
  entry h := by rw [findIn?_enter, h]
  symbol h := h
  resolved h := h
  unresolved h := h

theorem extends_addSymbol {scope : ScopeId} {declaration : Declaration}
    (hnew : binding.findIn? declaration.name.name scope = none) :
    Extends binding (binding.addSymbol scope declaration) where
  scope {id found} h := by
    rw [scope?_addSymbol]
    split
    · rw [h]
      exact ⟨_, rfl⟩
    · exact ⟨found.names, h⟩
  entry {name other symbol} h := by
    unfold findIn? at h hnew ⊢
    rw [scope?_addSymbol]
    split
    · rename_i heq
      subst heq
      obtain ⟨found, hfound, hname⟩ := Option.bind_eq_some_iff.mp h
      rw [hfound, Option.bind_some] at hnew
      rw [hfound, Option.map_some, Option.bind_some, Scope.find?_declare, if_neg, hname]
      intro heq
      rw [heq, hnew] at hname
      cases hname
    · exact h
  symbol {id symbol} h := by
    have hne : id ≠ binding.model.symbols.size := Nat.ne_of_lt (lt_of_symbol? h)
    rw [symbol?_addSymbol, if_neg hne, h]
  resolved h := h
  unresolved h := h

theorem extends_declareIn (scope : ScopeId) (declaration : Declaration) :
    Extends binding (binding.declareIn scope declaration) := by
  unfold declareIn
  split
  · exact extends_refer _ _
  · exact (extends_addSymbol ‹_›).trans (extends_refer _ _)

theorem extends_leave : Extends binding binding.leave :=
  ⟨fun {_ scope} h => ⟨scope.names, h⟩, id, id, id, id⟩

theorem Step.extends {action : Action} (h : Step binding action later) :
    Extends binding later := by
  cases h with
  | enter => exact extends_enter _
  | leave => exact extends_leave
  | declare | ensure | implicit => exact extends_declareIn _ _
  | read | write => exact extends_refer _ _
  | postpone => exact ⟨fun {_ scope} h => ⟨scope.names, h⟩, id, id, id, List.mem_cons_of_mem _⟩
  | ensured | ignore => exact .refl _

theorem extends_run (actions : List Action) : Extends binding (binding.run actions) := by
  induction actions generalizing binding with
  | nil => exact Extends.refl _
  | cons action others ih => exact (binding.step_cases action).extends.trans ih

end Growth

section Soundness

/-- The tables of names and the list of symbols say the same.  Symbols that are
nowhere declared are those of the script, and `undefined` is none of them. -/
structure Sound (binding : Binding) : Prop where
  entry : ∀ {name scope id}, binding.findIn? name scope = some id →
    ∃ symbol, binding.model.symbol? id = some symbol ∧ symbol.name = name ∧ symbol.scope = scope
  symbol : ∀ {id symbol}, binding.model.symbol? id = some symbol →
    symbol.id = id ∧ binding.findIn? symbol.name symbol.scope = some id
  implicit : ∀ {id symbol}, binding.model.symbol? id = some symbol → symbol.kind = .implicit →
    symbol.scope = scriptScope ∧ symbol.name ≠ "undefined"

/-- A declaration that may take place in a scope. -/
def Declarable (scope : ScopeId) (declaration : Declaration) : Prop :=
  declaration.kind = .implicit → scope = scriptScope ∧ declaration.name.name ≠ "undefined"

theorem sound_start : Sound start where
  entry h := by cases h
  symbol h := by cases h
  implicit h := by cases h

theorem Sound.refer (h : Sound binding) (node : NodeId) (symbol : SymbolId) :
    Sound (binding.refer node symbol) :=
  ⟨h.entry, h.symbol, h.implicit⟩

theorem Sound.enter (h : Sound binding) (kind : ScopeKind) : Sound (binding.enter kind) where
  entry hentry := by
    rw [findIn?_enter] at hentry
    exact h.entry hentry
  symbol hsymbol := by
    rw [findIn?_enter]
    exact h.symbol hsymbol
  implicit hsymbol := h.implicit hsymbol

theorem Sound.addSymbol (h : Sound binding) {scope : ScopeId} {declaration : Declaration}
    (hscope : scope < binding.model.scopes.size) (hdeclarable : Declarable scope declaration)
    (hnew : binding.findIn? declaration.name.name scope = none) :
    Sound (binding.addSymbol scope declaration) where
  entry {name other id} hentry := by
    rw [findIn?_addSymbol hscope] at hentry
    split at hentry
    · rename_i heq
      cases hentry
      rw [symbol?_addSymbol, if_pos rfl]
      exact ⟨_, rfl, heq.2.symm, heq.1.symm⟩
    · obtain ⟨symbol, hsymbol, hname⟩ := h.entry hentry
      exact ⟨symbol, (extends_addSymbol hnew).symbol hsymbol, hname⟩
  symbol {id symbol} hsymbol := by
    rw [symbol?_addSymbol] at hsymbol
    split at hsymbol
    · cases hsymbol
      refine ⟨Eq.symm ‹_›, ?_⟩
      rw [findIn?_addSymbol hscope, if_pos ⟨rfl, rfl⟩, ‹id = _›]
    · obtain ⟨hid, hfind⟩ := h.symbol hsymbol
      exact ⟨hid, (extends_addSymbol hnew).entry hfind⟩
  implicit {id symbol} hsymbol hkind := by
    rw [symbol?_addSymbol] at hsymbol
    split at hsymbol
    · cases hsymbol
      exact hdeclarable hkind
    · exact h.implicit hsymbol hkind

theorem Sound.declareIn (h : Sound binding) {scope : ScopeId} {declaration : Declaration}
    (hscope : scope < binding.model.scopes.size) (hdeclarable : Declarable scope declaration) :
    Sound (binding.declareIn scope declaration) := by
  unfold Binding.declareIn
  split
  · exact h.refer _ _
  · exact (h.addSymbol hscope hdeclarable ‹_›).refer _ _

theorem Sound.declared {scope : ScopeId} {declaration : Declaration}
    (h : Sound (binding.declareIn scope declaration))
    (hscope : scope < binding.model.scopes.size) :
    ∃ symbol, (binding.declareIn scope declaration).model.symbol?
        (binding.declared scope declaration) = some symbol ∧
      symbol.name = declaration.name.name ∧ symbol.scope = scope :=
  h.entry (by rw [findIn?_declareIn hscope, if_pos ⟨rfl, rfl⟩])

end Soundness

end ScriptKinds.Binding
