import ScriptKinds.Kind.Basic

/-!
Sets of kinds.

A set is a word with one bit for each kind, so sets with the same members are
equal however they were built.  Sets only grow.
-/

namespace ScriptKinds

/-- A set of kinds, one bit for each. -/
structure KindSet where
  bits : BitVec 9
deriving DecidableEq, Repr, Inhabited

namespace KindSet

def empty : KindSet := ⟨0⟩

/-- Whether a kind is in a set. -/
def contains (set : KindSet) (kind : Kind) : Bool :=
  set.bits.getLsbD kind.rank

def singleton (kind : Kind) : KindSet :=
  ⟨BitVec.twoPow 9 kind.rank⟩

/-- The kinds that are in either of two sets. -/
def union (set other : KindSet) : KindSet :=
  ⟨set.bits ||| other.bits⟩

/-- A set with one more kind, if it is not in it. -/
def insert (set : KindSet) (kind : Kind) : KindSet :=
  set.union (singleton kind)

def ofList (kinds : List Kind) : KindSet :=
  kinds.foldl insert empty

/-- The kinds in a set, in the order of all kinds. -/
def toList (set : KindSet) : List Kind :=
  Kind.all.filter set.contains

/-- How many kinds are in a set. -/
def size (set : KindSet) : Nat :=
  set.toList.length

/-- Whether no kind is in a set. -/
def isEmpty (set : KindSet) : Bool :=
  set.toList.isEmpty

/-- Adds a kind, and tells whether it was new. -/
def addKind (set : KindSet) (kind : Kind) : KindSet × Bool :=
  (set.insert kind, !set.contains kind)

/-- Adds the members of another set, and tells whether the set has grown. -/
def addSet (set other : KindSet) : KindSet × Bool :=
  (set.union other, (set.union other).size != set.size)

/-- Whether a set has one given member and no other. -/
def isExactly (set : KindSet) (kind : Kind) : Bool :=
  set.size == 1 && set.contains kind

/-- The names of the kinds in a set. -/
def names (set : KindSet) : List String :=
  set.toList.map Kind.name

/-- The set with members of the given names, unless a name is not that of a
kind. -/
def ofNames? (names : List String) : Option KindSet :=
  (names.mapM Kind.ofName?).map ofList

/-- A set as it is shown, in braces. -/
def text (set : KindSet) : String :=
  "\x7b" ++ ", ".intercalate set.names ++ "\x7d"

@[simp] theorem contains_empty (kind : Kind) : empty.contains kind = false := by
  simp [empty, contains]

@[simp] theorem contains_singleton (a b : Kind) :
    (singleton a).contains b = decide (a = b) := by
  have ha := a.rank_lt
  have hiff : a.rank = b.rank ↔ a = b := ⟨Kind.rank_injective, fun h => h ▸ rfl⟩
  simp [singleton, contains, BitVec.getLsbD_twoPow, ha, hiff]

@[simp] theorem contains_union (s t : KindSet) (kind : Kind) :
    (s.union t).contains kind = (s.contains kind || t.contains kind) := by
  simp [union, contains]

@[simp] theorem contains_insert (s : KindSet) (a b : Kind) :
    (s.insert a).contains b = (s.contains b || decide (a = b)) := by
  simp [insert]

@[simp] theorem mem_toList (s : KindSet) (kind : Kind) :
    kind ∈ s.toList ↔ s.contains kind = true := by
  simp [toList, Kind.mem_all]

end KindSet

end ScriptKinds
