import ScriptKinds.Scope.Basic
import Std.Data.TreeMap

namespace ScriptKinds

/-- The symbol of each occurrence of a name, by the number of the occurrence. -/
abbrev References := Std.TreeMap NodeId SymbolId

/-- The symbols and scopes of a script.  Each stands at the place of its
number, and scope 0 is that of the whole script. -/
structure Model where
  symbols : Array Symbol
  scopes : Array Scope
  references : References

namespace Model

def symbol? (model : Model) (id : SymbolId) : Option Symbol :=
  model.symbols[id]?

def scope? (model : Model) (id : ScopeId) : Option Scope :=
  model.scopes[id]?

/-- The symbol that an occurrence stands for, by its number. -/
def resolve? (model : Model) (node : NodeId) : Option SymbolId :=
  model.references[node]?

/-- The symbol to which an occurrence of a name refers. -/
def symbolFor? (model : Model) (node : NodeId) : Option Symbol :=
  (model.resolve? node).bind model.symbol?

/-- All symbols of a name, in the order of their numbers. -/
def symbolsNamed (model : Model) (name : String) : List Symbol :=
  model.symbols.toList.filter fun symbol => symbol.name == name

/-- The symbol of a name in the scope of the script. -/
def globalSymbol? (model : Model) (name : String) : Option Symbol :=
  ((model.scope? 0).bind fun scope => scope.find? name).bind model.symbol?

/-- The occurrences that stand for symbols, in the order of their numbers. -/
def referenceList (model : Model) : List (NodeId × SymbolId) :=
  model.references.toList

/-- Adds kinds to those of the symbol that an occurrence stands for. -/
def widen (model : Model) (node : NodeId) (kinds : KindSet) : Model :=
  match model.resolve? node with
  | some id =>
      { model with
        symbols := model.symbols.modify id fun symbol =>
          { symbol with kinds := symbol.kinds.union kinds } }
  | none => model

end Model

end ScriptKinds
