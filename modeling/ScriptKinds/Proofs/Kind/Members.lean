import Mathlib.Data.List.Basic
import Mathlib.Data.List.Induction
import Mathlib.Data.Set.List
import ScriptKinds.Kind.Set

namespace ScriptKinds

theorem Kind.name_injective {a b : Kind} (h : a.name = b.name) : a = b := by
  revert h
  cases a <;> cases b <;> decide

theorem Kind.ofName?_name (kind : Kind) : ofName? kind.name = some kind := by
  cases kind <;> decide

theorem Kind.all_pairwise : all.Pairwise fun kind other => kind.rank < other.rank := by
  decide

namespace KindSet

theorem ext_contains {set other : KindSet} (h : ∀ kind, set.contains kind = other.contains kind) :
    set = other := by
  obtain ⟨bits⟩ := set
  obtain ⟨others⟩ := other
  congr 1
  apply BitVec.eq_of_getLsbD_eq
  intro place hplace
  have hrank : ∀ place < 9, ∃ kind : Kind, kind.rank = place := by
    intro place hplace
    have hall : ∀ place : Fin 9, ∃ kind ∈ Kind.all, kind.rank = place := by decide
    obtain ⟨kind, -, hkind⟩ := hall ⟨place, hplace⟩
    exact ⟨kind, hkind⟩
  obtain ⟨kind, rfl⟩ := hrank place hplace
  exact h kind

theorem isExactly_iff {set : KindSet} {kind : Kind} :
    set.isExactly kind = true ↔ set = .singleton kind := by
  constructor
  · intro h
    rw [isExactly, Bool.and_eq_true, beq_iff_eq, size] at h
    obtain ⟨only, honly⟩ := List.length_eq_one_iff.mp h.1
    have hkind : kind = only := by
      rw [← List.mem_singleton, ← honly, mem_toList]
      exact h.2
    apply ext_contains
    intro other
    rw [contains_singleton, Bool.eq_iff_iff, ← mem_toList, honly, List.mem_singleton, ← hkind,
      decide_eq_true_eq, eq_comm]
  · rintro rfl
    cases kind <;> decide

theorem singleton_inj {kind other : Kind} : singleton kind = singleton other ↔ kind = other := by
  constructor
  · intro h
    have hcontains := contains_singleton kind other
    rw [h, contains_singleton, decide_eq_true rfl] at hcontains
    exact of_decide_eq_true hcontains.symm
  · rintro rfl
    rfl

theorem union_self (set : KindSet) : set.union set = set := by
  simp [union]

theorem eq_of_union_singleton {set : KindSet} {added kind : Kind}
    (h : set.union (.singleton added) = .singleton kind) : added = kind := by
  have hcontains := contains_union set (.singleton added) added
  rw [h, contains_singleton, contains_singleton, decide_eq_true rfl, Bool.or_true] at hcontains
  exact (of_decide_eq_true hcontains).symm

section Order

variable {set other : KindSet}

theorem toList_pairwise (set : KindSet) :
    set.toList.Pairwise fun kind other => kind.rank < other.rank :=
  Kind.all_pairwise.filter _

theorem toList_nodup (set : KindSet) : set.toList.Nodup :=
  set.toList_pairwise.imp fun hlt heq => Nat.ne_of_lt hlt (congrArg Kind.rank heq)

theorem eq_of_toList_eq (h : set.toList = other.toList) : set = other := by
  apply ext_contains
  intro kind
  rw [Bool.eq_iff_iff, ← mem_toList, ← mem_toList, h]

theorem toList_sublist (h : ∀ kind, set.contains kind = true → other.contains kind = true) :
    set.toList.Sublist other.toList :=
  List.monotone_filter_right _ h

theorem size_lt_iff (h : ∀ kind, set.contains kind = true → other.contains kind = true) :
    set.size < other.size ↔ set ≠ other := by
  have hsublist := toList_sublist h
  constructor
  · rintro hlt rfl
    exact Nat.lt_irrefl _ hlt
  · intro hne
    apply Nat.lt_of_le_of_ne hsublist.length_le
    intro hlength
    exact hne (eq_of_toList_eq (hsublist.eq_of_length hlength))

theorem insert_eq_self_iff {kind : Kind} : set.insert kind = set ↔ set.contains kind = true := by
  constructor
  · intro h
    rw [← h, contains_insert, decide_eq_true rfl, Bool.or_true]
  · intro h
    apply ext_contains
    intro other
    by_cases heq : kind = other
    · subst heq
      rw [contains_insert, h, Bool.true_or]
    · rw [contains_insert, decide_eq_false heq, Bool.or_false]

theorem addKind_grew (set : KindSet) (kind : Kind) :
    (set.addKind kind).2 = true ↔ set.size < (set.addKind kind).1.size := by
  have hkept : ∀ other, set.contains other = true → (set.insert kind).contains other = true := by
    intro other h
    rw [contains_insert, h, Bool.true_or]
  change (!set.contains kind) = true ↔ set.size < (set.insert kind).size
  rw [size_lt_iff hkept, Bool.not_eq_true', ← Bool.not_eq_true, ← insert_eq_self_iff]
  exact not_congr eq_comm

theorem addSet_grew (set other : KindSet) :
    (set.addSet other).2 = true ↔ set.size < (set.addSet other).1.size := by
  have hkept : ∀ kind, set.contains kind = true → (set.union other).contains kind = true := by
    intro kind h
    rw [contains_union, h, Bool.true_or]
  have hle : set.size ≤ (set.union other).size := (toList_sublist hkept).length_le
  change ((set.union other).size != set.size) = true ↔ set.size < (set.union other).size
  rw [bne_iff_ne]
  omega

end Order

section Names

theorem contains_ofList (kinds : List Kind) (kind : Kind) :
    (ofList kinds).contains kind = true ↔ kind ∈ kinds := by
  induction kinds using List.reverseRecOn with
  | nil => simp [ofList]
  | append_singleton kinds last ih =>
      rw [ofList, List.foldl_append, List.foldl_cons, List.foldl_nil, ← ofList, contains_insert,
        Bool.or_eq_true, ih, decide_eq_true_eq, List.mem_append, List.mem_singleton, eq_comm]

theorem ofNames?_map (kinds : List Kind) :
    ofNames? (kinds.map Kind.name) = some (ofList kinds) := by
  have hread : (kinds.map Kind.name).mapM Kind.ofName? = some kinds := by
    induction kinds with
    | nil => rfl
    | cons kind others ih => simp [Kind.ofName?_name, ih]
  rw [ofNames?, hread]
  rfl

theorem ofNames?_eq {set : KindSet} {names : List String}
    (h : ∀ name, name ∈ names ↔ name ∈ set.names) : ofNames? names = some set := by
  obtain ⟨kinds, rfl⟩ : names ∈ Set.range (List.map Kind.name) := by
    rw [Set.range_list_map]
    intro name hname
    obtain ⟨kind, -, hkind⟩ := List.mem_map.mp ((h name).mp hname)
    exact ⟨kind, hkind⟩
  rw [ofNames?_map]
  congr 1
  apply ext_contains
  intro kind
  have hnames := h kind.name
  rw [names, List.mem_map_of_injective fun _ _ => Kind.name_injective,
    List.mem_map_of_injective fun _ _ => Kind.name_injective] at hnames
  rw [Bool.eq_iff_iff, contains_ofList, hnames, mem_toList]

example : ofNames? ["array", "null", "array"] = some (ofList [.null, .array]) := by decide

end Names

end KindSet

end ScriptKinds
