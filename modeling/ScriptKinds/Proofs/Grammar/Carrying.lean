import Mathlib.Algebra.Order.Group.Multiset
import Mathlib.Data.Multiset.Range
import Mathlib.Tactic.Abel
import ScriptKinds.Grammar.Reader
import ScriptKinds.Proofs.Tree.Numbered

namespace ScriptKinds

/-- The numbers of nodes, each as often as it occurs. -/
def numbersOf (nodes : List Numbered) : Multiset NodeId :=
  ↑(nodes.map Numbered.id)

@[simp] theorem numbersOf_nil : numbersOf [] = 0 := rfl

@[simp] theorem numbersOf_cons (node : Numbered) (nodes : List Numbered) :
    numbersOf (node :: nodes) = {node.id} + numbersOf nodes := rfl

@[simp] theorem numbersOf_append (nodes others : List Numbered) :
    numbersOf (nodes ++ others) = numbersOf nodes + numbersOf others := by
  simp [numbersOf]

namespace Reader

variable {α β σ : Type}

theorem bind_ok {first : Reader α} {next : α → Reader β} {input : Input}
    {before after : Progress} {result : β} (h : (first >>= next) input before = .ok result after) :
    ∃ value middle, first input before = .ok value middle ∧
      next value input middle = .ok result after := by
  change EStateM.bind (first input) (fun value => next value input) before = _ at h
  unfold EStateM.bind at h
  split at h
  · exact ⟨_, _, ‹_›, h⟩
  · cases h

/-- A reader that hands out no number. -/
class Silent (reader : Reader α) : Prop where
  nextId_eq : ∀ {input before result after},
    reader input before = .ok result after → after.nextId = before.nextId

/-- A reader that turns the numbers held into a result with these numbers and
all that have been handed out meanwhile. -/
def Carries (held : Multiset NodeId) (reader : Reader α) (nodes : α → List Numbered) : Prop :=
  ∀ input before result after, reader input before = .ok result after →
    Multiset.range before.nextId + numbersOf (nodes result) =
      Multiset.range after.nextId + held

section Silence

instance (result : α) : Silent (pure result : Reader α) :=
  ⟨fun h => by cases h; rfl⟩

instance (reader : Reader α) (next : α → Reader β) [Silent reader] [∀ first, Silent (next first)] :
    Silent (reader >>= next) where
  nextId_eq h := by
    obtain ⟨first, middle, hfirst, hnext⟩ := bind_ok h
    exact (Silent.nextId_eq hnext).trans (Silent.nextId_eq hfirst)

instance (condition : Prop) [Decidable condition] (yes no : Reader α) [Silent yes] [Silent no] :
    Silent (if condition then yes else no) := by
  split <;> infer_instance

instance (ahead : Nat) : Silent (peek ahead) :=
  ⟨fun h => by cases h; rfl⟩

instance : Silent current :=
  inferInstanceAs (Silent (peek 0))

instance : Silent advance :=
  ⟨fun h => by cases h; rfl⟩

instance : Silent endOffset where
  nextId_eq {_ before _ _} h := by
    obtain ⟨place, nextId⟩ := before
    cases place <;> cases h <;> rfl

instance : Silent bound :=
  ⟨fun h => by cases h; rfl⟩

instance (cause : Cause) (offset : Nat) : Silent (failAt cause offset : Reader α) :=
  ⟨fun h => by cases h⟩

instance (expectation : String) (token : Token) :
    Silent (failExpecting expectation token : Reader α) :=
  inferInstanceAs (Silent (failAt _ _))

instance (expectation : String) : Silent (failHere expectation : Reader α) := by
  unfold failHere; infer_instance

instance : Silent offset := by
  unfold offset; infer_instance

instance (kind : TokenKind) : Silent (atKind kind) := by
  unfold atKind; infer_instance

instance (kinds : List TokenKind) : Silent (atOneOf kinds) := by
  unfold atOneOf; infer_instance

instance (word : String) : Silent (atWord word) := by
  unfold atWord; infer_instance

instance : Silent hasTokens := by
  unfold hasTokens; infer_instance

instance (kind : TokenKind) (failure : Reader Token) [Silent failure] :
    Silent (expectOr kind failure) := by
  unfold expectOr; infer_instance

instance (kind : TokenKind) : Silent (expect kind) := by
  unfold expect; infer_instance

instance (word : String) : Silent (expectWord word) := by
  unfold expectWord; infer_instance

instance : Silent expectSemicolon := by
  unfold expectSemicolon; infer_instance

instance (kind : TokenKind) : Silent (skipIf kind) := by
  unfold skipIf; infer_instance

instance (close : TokenKind) : Silent (separator close) := by
  unfold separator; infer_instance

instance (start : Nat) : Silent (spanFrom start) := by
  unfold spanFrom; infer_instance

instance (finished : Reader Bool) (item : Reader (List α)) [Silent finished] [Silent item] :
    Silent (collectUntil finished item) := by
  have hbounded (limit : Nat) : Silent (collectAtMost finished item limit) := by
    induction limit with
    | zero => exact ⟨fun h => by cases h⟩
    | succ limit ih =>
        unfold collectAtMost
        infer_instance
  unfold collectUntil
  infer_instance

end Silence

namespace Carries

variable {held : Multiset NodeId} {reader : Reader α} {nodes : α → List Numbered}

theorem pure {result : α} (h : held = numbersOf (nodes result)) :
    Carries held (Pure.pure result) nodes := by
  intro input before result' after hrun
  cases hrun
  rw [h]

theorem skip {first : Reader β} [Silent first] {next : β → Reader α}
    (h : ∀ result, Carries held (next result) nodes) : Carries held (first >>= next) nodes := by
  intro input before result after hrun
  obtain ⟨_, middle, hfirst, hnext⟩ := bind_ok hrun
  rw [← Silent.nextId_eq hfirst]
  exact h _ _ _ _ _ hnext

theorem skip_input {first : Reader β} [Silent first] {next : β → Reader α}
    (h : ∀ result, Carries held (next result) nodes) :
    Carries held (fun input => first input >>= fun result => next result input) nodes :=
  skip h

theorem of_input (h : ∀ input, Carries held (fun _ => reader input) nodes) :
    Carries held reader nodes :=
  fun input before result after hrun => h input input before result after hrun

theorem at_input (h : Carries held reader nodes) (input : Input) :
    Carries held (fun _ => reader input) nodes :=
  fun _ before result after hrun => h input before result after hrun

theorem given {value : β} {next : β → Reader α} (h : Carries held (next value) nodes) :
    Carries held (Pure.pure value >>= next) nodes :=
  h

/-- Two readers in turn.  What the second one holds besides the result of the
first one is held all along. -/
theorem seq {first : Reader β} {firstNodes : β → List Numbered} {next : β → Reader α}
    {taken : Multiset NodeId} (hfirst : Carries taken first firstNodes)
    (h : ∀ result, Carries (held + numbersOf (firstNodes result)) (next result) nodes) :
    Carries (held + taken) (first >>= next) nodes := by
  intro input before result after hrun
  obtain ⟨part, middle, hrunFirst, hrunNext⟩ := bind_ok hrun
  have hpart := hfirst _ _ _ _ hrunFirst
  have hrest := h part _ _ _ _ hrunNext
  have hsum : Multiset.range before.nextId + numbersOf (nodes result) +
        numbersOf (firstNodes part) =
      Multiset.range after.nextId + (held + taken) + numbersOf (firstNodes part) := by
    calc
      _ = Multiset.range before.nextId + numbersOf (firstNodes part) +
          numbersOf (nodes result) := by abel
      _ = Multiset.range middle.nextId + numbersOf (nodes result) + taken := by
        rw [hpart]
        abel
      _ = _ := by
        rw [hrest]
        abel
  exact add_right_cancel hsum

theorem read {first : Reader β} {firstNodes : β → List Numbered} {next : β → Reader α}
    (hfirst : Carries 0 first firstNodes)
    (h : ∀ result, Carries (held + numbersOf (firstNodes result)) (next result) nodes) :
    Carries held (first >>= next) nodes := by
  rw [← add_zero held]
  exact seq hfirst h

theorem fail {cause : Cause} {offset : Nat} : Carries held (failAt cause offset) nodes := by
  intro input before result after hrun
  cases hrun

theorem failHere {expectation : String} : Carries held (Reader.failHere expectation) nodes :=
  skip fun _ => fail

theorem exhausted : Carries held Reader.exhausted nodes := by
  intro input before result after hrun
  cases hrun

theorem breakOff : Carries held Reader.breakOff nodes := by
  intro input before result after hrun
  cases hrun

theorem fresh {next : NodeId → Reader α}
    (h : ∀ id, Carries (held + {id}) (next id) nodes) : Carries held (freshId >>= next) nodes := by
  intro input before result after hrun
  obtain ⟨id, middle, hfirst, hnext⟩ := bind_ok hrun
  cases hfirst
  have hrest := h before.nextId _ _ _ _ hnext
  rw [Multiset.range_succ, ← Multiset.singleton_add] at hrest
  have hsum : {before.nextId} + (Multiset.range before.nextId + numbersOf (nodes result)) =
      {before.nextId} + (Multiset.range after.nextId + held) := by
    rw [← add_assoc, hrest]
    abel
  exact add_left_cancel hsum

theorem ite {condition : Prop} [Decidable condition] {yes no : Reader α}
    (hyes : condition → Carries held yes nodes) (hno : ¬condition → Carries held no nodes) :
    Carries held (if condition then yes else no) nodes := by
  split
  · exact hyes ‹_›
  · exact hno ‹_›

variable {item : Reader α} {items : Reader (List α)} {finished : Reader Bool}

theorem optional {present : Bool} (h : Carries 0 item nodes) :
    Carries 0 (Reader.optional present item) (fun result? => result?.toList.flatMap nodes) := by
  unfold Reader.optional
  refine ite (fun _ => ?_) (fun _ => ?_)
  · exact read h fun result => pure (by simp)
  · exact pure (by simp)

theorem collectUntil [Silent finished] (h : Carries 0 items (·.flatMap nodes)) :
    Carries 0 (Reader.collectUntil finished items) (·.flatMap nodes) := by
  have hbounded (limit : Nat) :
      Carries 0 (collectAtMost finished items limit) (·.flatMap nodes) := by
    induction limit with
    | zero => exact exhausted
    | succ limit ih =>
        refine skip fun ends => ite (fun _ => pure (by simp)) (fun _ => ?_)
        exact read h fun first => read ih fun others => pure (by simp)
  exact skip hbounded

theorem separated (h : Carries 0 item nodes) :
    Carries 0 (Reader.separated item) (·.flatMap nodes) := by
  have hbounded (limit : Nat) : Carries 0 (separatedAtMost item limit) (·.flatMap nodes) := by
    induction limit with
    | zero => exact exhausted
    | succ limit ih =>
        refine read h fun first => skip fun more => ite (fun _ => ?_) (fun _ => ?_)
        · exact read ih fun others => pure (by simp)
        · exact pure (by simp)
  exact skip hbounded

/-- The nodes in the state of a repetition or in its result. -/
def againNodes (stateNodes : σ → List Numbered) (nodes : α → List Numbered) :
    Again σ α → List Numbered
  | .again state => stateNodes state
  | .done result => nodes result

/-- A repetition carries the numbers in its state to its result if each of its
steps does. -/
theorem iterate {step : σ → Reader (Again σ α)} {stateNodes : σ → List Numbered}
    (h : ∀ state, Carries (numbersOf (stateNodes state)) (step state)
      (againNodes stateNodes nodes)) (state : σ) :
    Carries (numbersOf (stateNodes state)) (Reader.iterate step state) nodes := by
  have hbounded (limit : Nat) (state : σ) :
      Carries (numbersOf (stateNodes state)) (repeatAtMost step limit state) nodes := by
    induction limit generalizing state with
    | zero => exact exhausted
    | succ limit ih =>
        rw [← zero_add (numbersOf _)]
        refine seq (h state) fun outcome => ?_
        rw [zero_add]
        cases outcome with
        | again next => exact ih next
        | done final => exact pure rfl
  intro input before result after hrun
  exact hbounded _ state _ _ _ _ hrun

end Carries

end Reader

end ScriptKinds
