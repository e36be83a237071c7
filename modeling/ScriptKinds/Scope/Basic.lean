import ScriptKinds.Kind.Set
import ScriptKinds.Syntax.Tree

namespace ScriptKinds

/-- Symbols are numbered from 0 in the order in which they are added. -/
abbrev SymbolId := Nat

/-- Scopes are numbered from 0 in the order in which they are opened. -/
abbrev ScopeId := Nat

/-- How a symbol came into existence. -/
inductive SymbolKind where
  | variable | parameter | function | classDef | imported
  /-- A global that is written but nowhere declared. -/
  | implicit
deriving DecidableEq, Repr, Inhabited

/-- The name of a kind of symbol in a report. -/
def SymbolKind.name : SymbolKind → String
  | .variable => "variable"
  | .parameter => "parameter"
  | .function => "function"
  | .classDef => "class"
  | .imported => "import"
  | .implicit => "implicit"

/-- A declared name, or one that is written without a declaration. -/
structure Symbol where
  id : SymbolId
  name : String
  kind : SymbolKind
  declaration : Nat
  scope : ScopeId
  kinds : KindSet
deriving DecidableEq, Repr, Inhabited

/-- The number, kind, name and kinds of value of a symbol in one line. -/
def Symbol.text (symbol : Symbol) : String :=
  "#" ++ toString symbol.id ++ " " ++ symbol.kind.name ++ " " ++ symbol.name ++ " " ++
    symbol.kinds.text

inductive ScopeKind where
  | script | function | block
deriving DecidableEq, Repr, Inhabited

/-- The names declared in a part of a script. -/
structure Scope where
  id : ScopeId
  kind : ScopeKind
  parent? : Option ScopeId
  names : List (String × SymbolId)
deriving DecidableEq, Repr, Inhabited

namespace Scope

/-- Whether declarations with `var` and of functions go no further out. -/
def isBoundary (scope : Scope) : Bool :=
  scope.kind == .script || scope.kind == .function

/-- The symbol of a name in a scope. -/
def find? (scope : Scope) (name : String) : Option SymbolId :=
  scope.names.lookup name

/-- Binds a name in a list of names.  A name that is there keeps its place. -/
def bindName (name : String) (symbol : SymbolId) :
    List (String × SymbolId) → List (String × SymbolId)
  | [] => [(name, symbol)]
  | entry :: others =>
      if name == entry.1 then (name, symbol) :: others
      else entry :: bindName name symbol others

/-- The scope in which a name also stands for a symbol. -/
def declare (scope : Scope) (name : String) (symbol : SymbolId) : Scope :=
  { scope with names := bindName name symbol scope.names }

theorem lookup_bindName (names : List (String × SymbolId)) (name other : String)
    (symbol : SymbolId) :
    (bindName name symbol names).lookup other =
      if other = name then some symbol else names.lookup other := by
  induction names with
  | nil =>
      by_cases ho : other = name
      · simp [bindName, ho]
      · simp [bindName, List.lookup_cons, beq_eq_false_iff_ne.mpr ho, ho]
  | cons entry others ih =>
      obtain ⟨key, value⟩ := entry
      by_cases hk : name = key
      · subst hk
        by_cases ho : other = name
        · simp [bindName, ho]
        · simp [bindName, List.lookup_cons, beq_eq_false_iff_ne.mpr ho, ho]
      · by_cases ho : other = key
        · have hne : ¬ key = name := fun h => hk h.symm
          simp [bindName, beq_eq_false_iff_ne.mpr hk, ho, hne]
        · simp [bindName, beq_eq_false_iff_ne.mpr hk, beq_eq_false_iff_ne.mpr ho,
            List.lookup_cons, ih]

theorem find?_declare (scope : Scope) (name other : String) (symbol : SymbolId) :
    (scope.declare name symbol).find? other =
      if other = name then some symbol else scope.find? other :=
  lookup_bindName scope.names name other symbol

end Scope

end ScriptKinds
