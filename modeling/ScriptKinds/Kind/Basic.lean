namespace ScriptKinds

/-- A category of values. -/
inductive Kind where
  | number | string | boolean | null | undefined | array | object | function | unknown
deriving DecidableEq, Repr, Inhabited

namespace Kind

/-- All kinds, in the order in which they are listed. -/
def all : List Kind :=
  [number, string, boolean, null, undefined, array, object, function, unknown]

/-- The kinds of the values that are no objects. -/
def primitives : List Kind :=
  [number, string, boolean, null, undefined]

/-- The bit of a kind in a set. -/
def rank : Kind → Nat
  | number => 0
  | string => 1
  | boolean => 2
  | null => 3
  | undefined => 4
  | array => 5
  | object => 6
  | function => 7
  | unknown => 8

/-- The name of a kind in a report. -/
def name : Kind → String
  | number => "number"
  | string => "string"
  | boolean => "boolean"
  | null => "null"
  | undefined => "undefined"
  | array => "array"
  | object => "object"
  | function => "function"
  | unknown => "unknown"

def ofName? (name : String) : Option Kind :=
  all.find? fun kind => kind.name == name

/-- Whether a kind is one of primitive values. -/
def isPrimitive (kind : Kind) : Bool :=
  primitives.contains kind

/-- The kinds that come after a kind, in order. -/
def after (kind : Kind) : List Kind :=
  all.filter fun other => kind.rank < other.rank

theorem mem_all (kind : Kind) : kind ∈ all := by
  cases kind <;> decide

theorem rank_lt (kind : Kind) : kind.rank < 9 := by
  cases kind <;> decide

theorem rank_injective {a b : Kind} (h : a.rank = b.rank) : a = b := by
  cases a <;> cases b <;> first | rfl | cases h

end Kind

end ScriptKinds
