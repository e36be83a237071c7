import Mathlib.Data.List.Dedup
import Mathlib.Data.List.Forall2
import ScriptKinds.Proofs.Kind.Members

namespace ScriptKinds

open KindSet (ofNames?)

/-- What can be done with a set and with the copies that have been made of it. -/
inductive KindSet.Operation where
  | addKind (kind : Kind)
  | addSet (other : KindSet)
  /-- Adds one of the copies, by its number. -/
  | addCopy (index : Nat)
  | copy

namespace KindSet.Operation

/-- The kinds that an operation brings.  Those of a copy have been added before. -/
def kinds : Operation → List Kind
  | addKind kind => [kind]
  | addSet other => other.toList
  | addCopy _ | copy => []

end KindSet.Operation

open KindSet (Operation)

/-- A set and the copies that have been made of it, earliest first. -/
structure Growth where
  set : KindSet
  copies : List KindSet

namespace Growth

def start : Growth :=
  ⟨.empty, []⟩

/-- The state with the set after an addition, and whether that tells that the set has
grown. -/
def become (growth : Growth) (addition : KindSet × Bool) : Growth × Bool :=
  ({ growth with set := addition.1 }, addition.2)

/-- Carries out an operation, and says whether the set has grown. -/
def perform (growth : Growth) : Operation → Growth × Bool
  | .addKind kind => growth.become (growth.set.addKind kind)
  | .addSet other => growth.become (growth.set.addSet other)
  | .addCopy index =>
      match growth.copies[index]? with
      | some copy => growth.become (growth.set.addSet copy)
      | none => (growth, false)
  | .copy => ({ growth with copies := growth.copies ++ [growth.set] }, false)

def run (growth : Growth) (operations : List Operation) : Growth :=
  operations.foldl (fun growth operation => (growth.perform operation).1) growth

end Growth

/-- What has been added to a set, in order and with repetitions, and what had been
added when each copy was made. -/
structure Additions where
  added : List Kind
  copied : List (List Kind)

namespace Additions

/-- What has been added behind one more operation. -/
def step (additions : Additions) : Operation → Additions
  | .addKind kind => { additions with added := additions.added ++ [kind] }
  | .addSet other => { additions with added := additions.added ++ other.toList }
  | .addCopy index =>
      { additions with added := additions.added ++ additions.copied[index]?.getD [] }
  | .copy => { additions with copied := additions.copied ++ [additions.added] }

def of (operations : List Operation) : Additions :=
  operations.foldl step ⟨[], []⟩

theorem of_concat (operations : List Operation) (operation : Operation) :
    of (operations ++ [operation]) = (of operations).step operation :=
  List.foldl_concat _ _ _ _

theorem copied_subset (operations : List Operation) :
    ∀ kinds ∈ (of operations).copied, kinds ⊆ (of operations).added := by
  induction operations using List.reverseRecOn with
  | nil => exact List.forall_mem_nil _
  | append_singleton operations operation ih =>
      rw [of_concat]
      cases operation with
      | addKind _ | addSet _ | addCopy _ =>
          exact fun kinds hkinds => List.subset_append_of_subset_left _ (ih kinds hkinds)
      | copy =>
          intro kinds hkinds
          rcases List.mem_append.mp hkinds with hbefore | hnew
          · exact ih kinds hbefore
          · rw [List.mem_singleton.mp hnew]
            exact List.Subset.refl _

theorem mem_added (operations : List Operation) (kind : Kind) :
    kind ∈ (of operations).added ↔ ∃ operation ∈ operations, kind ∈ operation.kinds := by
  induction operations using List.reverseRecOn with
  | nil => simp [of]
  | append_singleton operations operation ih =>
      rw [of_concat]
      cases operation with
      | addKind _ | addSet _ | copy => simp [step, Operation.kinds, ih, or_and_right, exists_or]
      | addCopy index =>
          have hcopied : (of operations).copied[index]?.getD [] ⊆ (of operations).added := by
            cases hkinds : (of operations).copied[index]? with
            | none => exact List.nil_subset _
            | some kinds => exact copied_subset operations kinds (List.mem_of_getElem? hkinds)
          have hnothing : kind ∈ ((of operations).step (.addCopy index)).added ↔
              kind ∈ (of operations).added :=
            List.mem_append.trans (or_iff_left_of_imp fun h => hcopied h)
          rw [hnothing, ih]
          simp [Operation.kinds, or_and_right, exists_or]

end Additions

/-- A set shows which kinds have been added to it, and nothing else. -/
structure KindSet.Shows (set : KindSet) (added : List Kind) : Prop where
  contains : ∀ kind, set.contains kind = true ↔ kind ∈ added
  members : ∀ kind, kind ∈ set.toList ↔ kind ∈ added
  ascending : set.toList.Pairwise fun kind other => kind.rank < other.rank
  size : set.size = set.toList.length ∧ set.size = added.dedup.length
  /-- Any list of the names of the members reads as the set. -/
  names : ∀ names, (∀ name, name ∈ names ↔ name ∈ set.names) → ofNames? names = some set

namespace KindSet

variable {set other : KindSet} {added otherAdded : List Kind}

theorem shows_of_contains (h : ∀ kind, set.contains kind = true ↔ kind ∈ added) :
    set.Shows added where
  contains := h
  members kind := by rw [mem_toList, h]
  ascending := set.toList_pairwise
  size := by
    refine ⟨rfl, List.Perm.length_eq ?_⟩
    rw [List.perm_ext_iff_of_nodup set.toList_nodup added.nodup_dedup]
    intro kind
    rw [mem_toList, h, List.mem_dedup]
  names names hnames := ofNames?_eq hnames

theorem Shows.eq (h : set.Shows added) (h' : other.Shows otherAdded)
    (hsame : ∀ kind, kind ∈ added ↔ kind ∈ otherAdded) : set = other := by
  apply ext_contains
  intro kind
  rw [Bool.eq_iff_iff, h.contains, h'.contains, hsame]

theorem Shows.union (h : set.Shows added)
    (hother : ∀ kind, other.contains kind = true ↔ kind ∈ otherAdded) :
    (set.union other).Shows (added ++ otherAdded) := by
  apply shows_of_contains
  intro kind
  rw [contains_union, Bool.or_eq_true, h.contains, hother, List.mem_append]

end KindSet

namespace Growth

variable {growth : Growth} {additions : Additions}

/-- A set and its copies show what has been added. -/
structure Follows (growth : Growth) (additions : Additions) : Prop where
  set : growth.set.Shows additions.added
  copies : List.Forall₂ KindSet.Shows growth.copies additions.copied

theorem follows_start : start.Follows (.of []) where
  set := KindSet.shows_of_contains (by simp [start, Additions.of])
  copies := .nil

theorem Follows.perform (h : growth.Follows additions) (operation : Operation) :
    (growth.perform operation).1.Follows (additions.step operation) := by
  cases operation with
  | addKind kind =>
      refine ⟨h.set.union ?_, h.copies⟩
      intro other
      rw [KindSet.contains_singleton, decide_eq_true_eq, List.mem_singleton, eq_comm]
  | addSet other => exact ⟨h.set.union fun kind => (other.mem_toList kind).symm, h.copies⟩
  | addCopy index =>
      cases hcopy : growth.copies[index]? with
      | none =>
          have hcopied : additions.copied[index]? = none := by
            rw [List.getElem?_eq_none_iff, ← h.copies.length_eq, ← List.getElem?_eq_none_iff]
            exact hcopy
          rw [Growth.perform, hcopy, Additions.step, hcopied, Option.getD_none, List.append_nil]
          exact h
      | some copy =>
          obtain ⟨hindex, rfl⟩ := List.getElem?_eq_some_iff.mp hcopy
          have hcopied : index < additions.copied.length := h.copies.length_eq ▸ hindex
          have hshows := h.copies.get hindex hcopied
          rw [Growth.perform, hcopy, Additions.step, List.getElem?_eq_getElem hcopied]
          exact ⟨h.set.union hshows.contains, h.copies⟩
  | copy => exact ⟨h.set, List.rel_append h.copies (.cons h.set .nil)⟩

theorem Follows.run (h : growth.Follows additions) (operations : List Operation) :
    (growth.run operations).Follows (operations.foldl Additions.step additions) := by
  induction operations generalizing growth additions with
  | nil => exact h
  | cons operation others ih => exact ih (h.perform operation)

theorem copies_perform (growth : Growth) (operation : Operation) :
    growth.copies <+: (growth.perform operation).1.copies := by
  cases operation with
  | addKind kind => exact List.prefix_refl _
  | addSet other => exact List.prefix_refl _
  | addCopy index =>
      rw [perform]
      split <;> exact List.prefix_refl _
  | copy => exact List.prefix_append _ _

theorem copies_run (growth : Growth) (operations : List Operation) :
    growth.copies <+: (growth.run operations).copies := by
  induction operations generalizing growth with
  | nil => exact List.prefix_refl _
  | cons operation others ih => exact (copies_perform growth operation).trans (ih _)

theorem perform_grew (growth : Growth) (operation : Operation) :
    (growth.perform operation).2 = true ↔
      growth.set.size < (growth.perform operation).1.set.size := by
  cases operation with
  | addKind kind => exact growth.set.addKind_grew kind
  | addSet other => exact growth.set.addSet_grew other
  | addCopy index =>
      rw [perform]
      split
      · exact growth.set.addSet_grew _
      · exact iff_of_false Bool.false_ne_true (Nat.lt_irrefl _)
  | copy => exact iff_of_false Bool.false_ne_true (Nat.lt_irrefl _)

/-- After any operations a set and its copies show exactly what had been added to
them.  Later operations change no copy, an operation tells that the set has grown if
and only if it has more members afterwards, and the set is the same after any other
operations that add the same kinds, such as these in another order or repeated. -/
theorem grown_by_additions (operations : List Operation) :
    (start.run operations).Follows (.of operations) ∧
      (∀ more, (start.run operations).copies <+: (start.run (operations ++ more)).copies) ∧
      (∀ operation, ((start.run operations).perform operation).2 = true ↔
        (start.run operations).set.size <
          ((start.run operations).perform operation).1.set.size) ∧
      (∀ others, (∀ kind, kind ∈ (Additions.of operations).added ↔
          kind ∈ (Additions.of others).added) →
        (start.run operations).set = (start.run others).set) ∧
      ∀ others, (∀ operation, operation ∈ operations ↔ operation ∈ others) →
        (start.run operations).set = (start.run others).set := by
  have hfollows (operations : List Operation) :
      (start.run operations).Follows (.of operations) := follows_start.run operations
  have hsame (others : List Operation) (hadded : ∀ kind,
      kind ∈ (Additions.of operations).added ↔ kind ∈ (Additions.of others).added) :
      (start.run operations).set = (start.run others).set :=
    (hfollows operations).set.eq (hfollows others).set hadded
  refine ⟨hfollows operations, ?_, perform_grew _, hsame, ?_⟩
  · intro more
    have hsplit : start.run (operations ++ more) = (start.run operations).run more :=
      List.foldl_append
    rw [hsplit]
    exact copies_run _ more
  · intro others hoperations
    apply hsame
    intro kind
    simp only [Additions.mem_added, hoperations]

end Growth

end ScriptKinds
