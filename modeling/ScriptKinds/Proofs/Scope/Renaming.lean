import Mathlib.Logic.Function.Basic
import ScriptKinds.Proofs.Scope.ActionRenaming
import ScriptKinds.Scope.Binding

namespace ScriptKinds

/-- A symbol with its name respelled. -/
def Symbol.rename (respell : String → String) (symbol : Symbol) : Symbol :=
  { symbol with name := respell symbol.name }

/-- A scope with its names respelled. -/
def Scope.rename (respell : String → String) (scope : Scope) : Scope :=
  { scope with names := scope.names.map fun entry => (respell entry.1, entry.2) }

/-- The model with other names for its symbols and in its scopes. -/
def Model.rename (respell : String → String) (model : Model) : Model where
  symbols := model.symbols.map (Symbol.rename respell)
  scopes := model.scopes.map (Scope.rename respell)
  references := model.references

/-- A state of binding with all names respelled. -/
def Binding.rename (respell : String → String) (binding : Binding) : Binding where
  model := binding.model.rename respell
  path := binding.path
  unresolved := binding.unresolved.map (Identifier.rename respell)

theorem modify_map {α β : Type} (each : α → β) (change : α → α) (changed : β → β)
    (h : ∀ entry, changed (each entry) = each (change entry)) (entries : Array α) (place : Nat) :
    (entries.map each).modify place changed = (entries.modify place change).map each := by
  apply Array.ext_getElem?
  intro other
  simp only [Array.getElem?_modify, Array.getElem?_map]
  split
  · simp only [Option.map_map, Function.comp_def, h]
  · rfl

variable {respell : String → String} (hinjective : Function.Injective respell)

namespace Scope

include hinjective

theorem find?_rename (scope : Scope) (name : String) :
    (scope.rename respell).find? (respell name) = scope.find? name := by
  simp only [find?, rename]
  induction scope.names with
  | nil => rfl
  | cons entry others ih =>
      obtain ⟨key, symbol⟩ := entry
      simp only [List.map_cons, List.lookup_cons, ih, hinjective.beq_eq]

theorem bindName_rename (name : String) (symbol : SymbolId) (names : List (String × SymbolId)) :
    bindName (respell name) symbol (names.map fun entry => (respell entry.1, entry.2)) =
      (bindName name symbol names).map fun entry => (respell entry.1, entry.2) := by
  induction names with
  | nil => rfl
  | cons entry others ih =>
      simp only [List.map_cons, bindName, ih, hinjective.beq_eq]
      split <;> rfl

theorem declare_rename (scope : Scope) (name : String) (symbol : SymbolId) :
    (scope.rename respell).declare (respell name) symbol =
      (scope.declare name symbol).rename respell := by
  simp only [declare, rename, bindName_rename hinjective]

end Scope

namespace Binding

variable (binding : Binding)

theorem scope?_rename (id : ScopeId) :
    (binding.rename respell).model.scope? id =
      (binding.model.scope? id).map (Scope.rename respell) :=
  Array.getElem?_map

theorem scopeAt_rename (place : Place) :
    (binding.rename respell).scopeAt place = binding.scopeAt place := by
  cases place with
  | innermost => rfl
  | boundary =>
      rw [scopeAt, scopeAt]
      refine congrArg (fun test => (binding.path.find? test).getD scriptScope) ?_
      funext scope
      rw [scope?_rename]
      cases binding.model.scope? scope <;> rfl

theorem enter_rename (kind : ScopeKind) :
    (binding.rename respell).enter kind = (binding.enter kind).rename respell := by
  simp [enter, rename, Model.rename, Scope.rename]

include hinjective

theorem findIn?_rename (name : String) (scope : ScopeId) :
    (binding.rename respell).findIn? (respell name) scope = binding.findIn? name scope := by
  rw [findIn?, findIn?, scope?_rename]
  cases binding.model.scope? scope with
  | none => rfl
  | some found => exact found.find?_rename hinjective name

theorem lookup?_rename (name : String) :
    (binding.rename respell).lookup? (respell name) = binding.lookup? name := by
  rw [lookup?, lookup?, funext (findIn?_rename hinjective binding name)]
  rfl

theorem addSymbol_rename (scope : ScopeId) (declaration : Declaration) :
    (binding.rename respell).addSymbol scope (declaration.rename respell) =
      (binding.addSymbol scope declaration).rename respell := by
  have hscopes : (binding.model.scopes.map (Scope.rename respell)).modify scope
        (·.declare (respell declaration.name.name) binding.model.symbols.size) =
      (binding.model.scopes.modify scope
        (·.declare declaration.name.name binding.model.symbols.size)).map
          (Scope.rename respell) :=
    modify_map _ _ _ (fun found => found.declare_rename hinjective _ _) _ _
  simp only [addSymbol, rename, Model.rename, Declaration.rename, Identifier.rename,
    Array.size_map, Array.map_push, hscopes]
  rfl

theorem declareIn_rename (scope : ScopeId) (declaration : Declaration) :
    (binding.rename respell).declareIn scope (declaration.rename respell) =
      (binding.declareIn scope declaration).rename respell := by
  have hfind : (binding.rename respell).findIn? (declaration.rename respell).name.name scope =
      binding.findIn? declaration.name.name scope := findIn?_rename hinjective binding _ scope
  have hsize : (binding.rename respell).model.symbols.size = binding.model.symbols.size :=
    Array.size_map
  rw [declareIn, declareIn, hfind, hsize, addSymbol_rename hinjective]
  cases binding.findIn? declaration.name.name scope <;> rfl

variable (hundefined : respell "undefined" = "undefined")

include hundefined in
theorem step_rename (action : Action) :
    (binding.rename respell).step (action.rename respell) =
      (binding.step action).rename respell := by
  cases action with
  | enter kind => exact binding.enter_rename kind
  | leave => rfl
  | declare declaration =>
      simp only [Action.rename, step, scopeAt_rename, declareIn_rename hinjective]
  | ensure place declaration =>
      have hresolved : (binding.rename respell).model.resolve? (declaration.rename respell).name.id =
          binding.model.resolve? declaration.name.id := rfl
      rw [Action.rename, step, step, hresolved, scopeAt_rename, declareIn_rename hinjective]
      cases binding.model.resolve? declaration.name.id <;> rfl
  | read name =>
      have hfound : (binding.rename respell).lookup? (name.rename respell).name =
          binding.lookup? name.name := lookup?_rename hinjective binding name.name
      rw [Action.rename, step, step, hfound]
      cases binding.lookup? name.name <;> rfl
  | write name position =>
      have hfound : (binding.rename respell).lookup? (name.rename respell).name =
          binding.lookup? name.name := lookup?_rename hinjective binding name.name
      have hignored : (name.rename respell).name = "undefined" ↔ name.name = "undefined" :=
        ⟨fun h => hinjective (h.trans hundefined.symm), fun h => h ▸ hundefined⟩
      have hdeclared := declareIn_rename hinjective binding scriptScope ⟨name, .implicit, position⟩
      rw [Declaration.rename] at hdeclared
      rw [Action.rename, step, step, hfound]
      cases binding.lookup? name.name with
      | some symbol => rfl
      | none =>
          simp only [hignored, hdeclared]
          split <;> rfl

include hundefined in
theorem run_rename (actions : List Action) :
    (binding.rename respell).run (actions.map (Action.rename respell)) =
      (binding.run actions).rename respell := by
  induction actions generalizing binding with
  | nil => rfl
  | cons action others ih =>
      rw [List.map_cons, run, List.foldl_cons, step_rename hinjective binding hundefined]
      exact ih (binding.step action)

theorem retry_rename (name : Identifier) :
    (binding.rename respell).retry (name.rename respell) =
      (binding.retry name).rename respell := by
  have hfind : (binding.rename respell).findIn? (name.rename respell).name scriptScope =
      binding.findIn? name.name scriptScope := findIn?_rename hinjective binding _ _
  rw [retry, retry, hfind]
  cases binding.findIn? name.name scriptScope <;> rfl

theorem finish_rename : (binding.rename respell).finish = binding.finish.rename respell := by
  have hretries (names : List Identifier) (current : Binding) :
      (names.map (Identifier.rename respell)).foldl retry (current.rename respell) =
        (names.foldl retry current).rename respell := by
    induction names generalizing current with
    | nil => rfl
    | cons name others ih =>
        rw [List.map_cons, List.foldl_cons, retry_rename hinjective]
        exact ih (current.retry name)
  have hunresolved : (binding.rename respell).unresolved.reverse =
      binding.unresolved.reverse.map (Identifier.rename respell) :=
    List.map_reverse.symm
  rw [finish, hunresolved, hretries]
  rfl

end Binding

include hinjective in
theorem Model.bind_outline (hundefined : respell "undefined" = "undefined") (root : Block) :
    Model.bind (root.relabel (.outline respell)) = (Model.bind root).rename respell := by
  have hstart : Binding.start = Binding.start.rename respell := by
    simp [Binding.start, Binding.rename, Model.rename]
  rw [bind, scriptActions_outline, hstart, Binding.run_rename hinjective _ hundefined,
    Binding.finish_rename hinjective]
  rfl

end ScriptKinds
