import ScriptKinds.Scope.Action
import ScriptKinds.Scope.Model

/-!
Binding the names of a script.

The actions of a script are carried out on a growing model with a path of open
scopes.  A use of a name stands for the symbol of that name in the innermost
open scope that has one.  A write to a name that no open scope has declares a
global, except that `undefined` cannot be written.  A read of such a name is
looked up among the globals when the script has ended.
-/

namespace ScriptKinds

/-- A model that is being built. -/
structure Binding where
  model : Model
  /-- The open scopes, innermost first. -/
  path : List ScopeId
  /-- The reads that found no symbol, latest first. -/
  unresolved : List Identifier

namespace Binding

/-- Nothing is bound yet, and no scope is open. -/
def start : Binding :=
  ⟨⟨#[], #[], ∅⟩, [], []⟩

/-- The scope of a script is its first. -/
def scriptScope : ScopeId := 0

/-- The symbol of a name in a scope. -/
def findIn? (binding : Binding) (name : String) (scope : ScopeId) : Option SymbolId :=
  (binding.model.scope? scope).bind fun found => found.find? name

/-- The symbol of a name in the innermost open scope that has one. -/
def lookup? (binding : Binding) (name : String) : Option SymbolId :=
  binding.path.findSome? (binding.findIn? name)

/-- The open scope in which a declaration takes place. -/
def scopeAt (binding : Binding) : Place → ScopeId
  | .innermost => binding.path.headD scriptScope
  | .boundary =>
      (binding.path.find? fun scope =>
        match binding.model.scope? scope with
        | some found => found.isBoundary
        | none => false).getD scriptScope

/-- Records which symbol an occurrence stands for. -/
def refer (binding : Binding) (node : NodeId) (symbol : SymbolId) : Binding :=
  { binding with
    model.references := binding.model.references.insert node symbol }

/-- Opens a new scope inside the innermost open one. -/
def enter (binding : Binding) (kind : ScopeKind) : Binding :=
  let id := binding.model.scopes.size
  { binding with
    model.scopes := binding.model.scopes.push ⟨id, kind, binding.path.head?, []⟩
    path := id :: binding.path }

def leave (binding : Binding) : Binding :=
  { binding with path := binding.path.tail }

/-- Adds a new symbol to a scope, without a look at its names. -/
def addSymbol (binding : Binding) (scope : ScopeId) (declaration : Declaration) : Binding :=
  let id := binding.model.symbols.size
  { binding with
    model.symbols := binding.model.symbols.push
      ⟨id, declaration.name.name, declaration.kind, declaration.position, scope, .empty⟩
    model.scopes := binding.model.scopes.modify scope fun found =>
      found.declare declaration.name.name id }

/-- Declares a name in a scope.  A name that is declared there already keeps
its symbol. -/
def declareIn (binding : Binding) (scope : ScopeId) (declaration : Declaration) : Binding :=
  match binding.findIn? declaration.name.name scope with
  | some existing => binding.refer declaration.name.id existing
  | none =>
      (binding.addSymbol scope declaration).refer declaration.name.id binding.model.symbols.size

def step (binding : Binding) : Action → Binding
  | .enter kind => binding.enter kind
  | .leave => binding.leave
  | .declare declaration => binding.declareIn (binding.scopeAt .innermost) declaration
  | .ensure place declaration =>
      match binding.model.resolve? declaration.name.id with
      | some _ => binding
      | none => binding.declareIn (binding.scopeAt place) declaration
  | .read name =>
      match binding.lookup? name.name with
      | some symbol => binding.refer name.id symbol
      | none => { binding with unresolved := name :: binding.unresolved }
  | .write name position =>
      match binding.lookup? name.name with
      | some symbol => binding.refer name.id symbol
      | none =>
          if name.name = "undefined" then binding
          else binding.declareIn scriptScope ⟨name, .implicit, position⟩

/-- Carries out some actions in turn. -/
def run (binding : Binding) (actions : List Action) : Binding :=
  actions.foldl step binding

/-- Looks up a read among the globals. -/
def retry (binding : Binding) (name : Identifier) : Binding :=
  match binding.findIn? name.name scriptScope with
  | some symbol => binding.refer name.id symbol
  | none => binding

/-- The model after all reads that found no symbol have been looked up again. -/
def finish (binding : Binding) : Model :=
  (binding.unresolved.reverse.foldl retry binding).model

end Binding

/-- The model of a script in which every symbol's set of kinds is empty. -/
def Model.bind (root : Block) : Model :=
  (Binding.start.run (scriptActions root)).finish

end ScriptKinds
