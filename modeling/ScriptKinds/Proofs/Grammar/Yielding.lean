import ScriptKinds.Proofs.Grammar.SpellingRules

namespace ScriptKinds

namespace Reader

variable {α β σ : Type}

/-- Whatever a reader makes of a token with a property is good. -/
def Yields (input : Input) (now : Token → Prop) (reader : Reader α) (good : α → Prop) : Prop :=
  ∀ before result after, now (input.tokens.get before.place) →
    reader input before = .ok result after → good result

namespace Yields

variable {input : Input} {now : Token → Prop} {reader : Reader α} {good other : α → Prop}

theorem pure {result : α} (h : good result) : Yields input now (Pure.pure result) good := by
  intro before result' after _ hrun
  cases hrun
  exact h

theorem fail {cause : Cause} {offset : Nat} : Yields input now (failAt cause offset) good := by
  intro before result after _ hrun
  cases hrun

theorem failHere {expectation : String} :
    Yields input now (Reader.failHere expectation) good := by
  intro before result after _ hrun
  cases hrun

theorem exhausted : Yields input now Reader.exhausted good := by
  intro before result after _ hrun
  cases hrun

theorem breakOff : Yields input now Reader.breakOff good := by
  intro before result after _ hrun
  cases hrun

theorem mono (h : Yields input now reader good) (himp : ∀ result, good result → other result) :
    Yields input now reader other :=
  fun before result after hnow hrun => himp result (h before result after hnow hrun)

theorem and (h : Yields input now reader good) (h' : Yields input now reader other) :
    Yields input now reader fun result => good result ∧ other result :=
  fun before result after hnow hrun =>
    ⟨h before result after hnow hrun, h' before result after hnow hrun⟩

theorem given_now {sort : Token → Prop} (hnow : ∀ token, now token → sort token)
    (h : Yields input sort reader good) : Yields input now reader good :=
  fun before result after htoken => h before result after (hnow _ htoken)

theorem anywhere (h : Yields input anything reader good) : Yields input now reader good :=
  h.given_now fun _ _ => trivial

theorem at_input (h : Yields input now (fun _ => reader input) good) :
    Yields input now reader good :=
  h

theorem to_input (h : Yields input now reader good) :
    Yields input now (fun _ => reader input) good :=
  h

section Turns

variable {first : Reader β} {next : β → Reader α} {firstGood : β → Prop}

theorem read (hfirst : Yields input now first firstGood)
    (h : ∀ result, firstGood result → Yields input anything (next result) good) :
    Yields input now (first >>= next) good := by
  intro before result after hnow hrun
  obtain ⟨part, middle, hrunFirst, hrunNext⟩ := bind_ok hrun
  exact h part (hfirst _ _ _ hnow hrunFirst) _ _ _ trivial hrunNext

theorem skip (h : ∀ result, Yields input anything (next result) good) :
    Yields input now (first >>= next) good := by
  intro before result after _ hrun
  obtain ⟨part, middle, -, hrunNext⟩ := bind_ok hrun
  exact h part _ _ _ trivial hrunNext

theorem given {value : β} (h : Yields input now (next value) good) :
    Yields input now (Pure.pure value >>= next) good :=
  h

theorem see {view : Token → β} [Sees first view]
    (h : ∀ token, now token → Yields input (· = token) (next (view token)) good) :
    Yields input now (first >>= next) good := by
  intro before result after hnow hrun
  obtain ⟨part, middle, hrunFirst, hrunNext⟩ := bind_ok hrun
  obtain ⟨rfl, rfl⟩ := Sees.run hrunFirst
  exact h _ hnow _ _ _ rfl hrunNext

theorem see_input {view : Token → β} [Sees first view]
    (h : ∀ token, now token → Yields input (· = token) (next (view token)) good) :
    Yields input now (fun input => first input >>= fun result => next result input) good :=
  see h

end Turns

theorem peek_input {ahead : Nat} {next : Token → Reader α}
    (h : ∀ token, Yields input now (next token) good) :
    Yields input now (fun input => peek ahead input >>= fun token => next token input) good :=
  fun before result after hnow hrun => h _ before result after hnow hrun

theorem take {next : Token → Reader α}
    (h : ∀ token, now token → Yields input anything (next token) good) :
    Yields input now (advance >>= next) good := by
  intro before result after hnow hrun
  exact h _ hnow _ _ _ trivial hrun

theorem ite {condition : Prop} [Decidable condition] {yes no : Reader α}
    (hyes : condition → Yields input now yes good)
    (hno : ¬condition → Yields input now no good) :
    Yields input now (if condition then yes else no) good := by
  split
  · exact hyes ‹_›
  · exact hno ‹_›

section Repetition

variable {item : Reader α} {others : Reader (List α)} {finished : Reader Bool}

theorem optional {present : Bool} (h : Yields input now item good) :
    Yields input now (Reader.optional present item) fun result? =>
      ∀ result ∈ result?.toList, good result := by
  unfold Reader.optional
  refine ite (fun _ => ?_) (fun _ => pure nofun)
  exact read h fun result hresult => pure (List.forall_mem_singleton.mpr hresult)

theorem collectUntil
    (h : Yields input anything others fun results => ∀ result ∈ results, good result) :
    Yields input now (Reader.collectUntil finished others) fun results =>
      ∀ result ∈ results, good result := by
  have hbounded (limit : Nat) : Yields input anything (collectAtMost finished others limit)
      fun results => ∀ result ∈ results, good result := by
    induction limit with
    | zero => exact exhausted
    | succ limit ih =>
        refine skip fun ends => ite (fun _ => pure nofun) fun _ => ?_
        refine read h fun first hfirst => read ih fun rest hrest => pure ?_
        exact List.forall_mem_append.mpr ⟨hfirst, hrest⟩
  exact skip hbounded

theorem separated (h : Yields input anything item good) :
    Yields input now (Reader.separated item) fun results =>
      results ≠ [] ∧ ∀ result ∈ results, good result := by
  have hbounded (limit : Nat) : Yields input anything (separatedAtMost item limit)
      fun results => results ≠ [] ∧ ∀ result ∈ results, good result := by
    induction limit with
    | zero => exact exhausted
    | succ limit ih =>
        refine read h fun first hfirst => skip fun more => ite (fun _ => ?_) fun _ => ?_
        · refine read ih fun rest hrest => pure ⟨List.cons_ne_nil _ _, ?_⟩
          exact List.forall_mem_cons.mpr ⟨hfirst, hrest.2⟩
        · exact pure ⟨List.cons_ne_nil _ _, List.forall_mem_singleton.mpr hfirst⟩
  exact skip hbounded

/-- What holds of the state of a repetition or of its result. -/
def againGood (invariant : σ → Prop) (good : α → Prop) : Again σ α → Prop
  | .again state => invariant state
  | .done result => good result

theorem iterate {step : σ → Reader (Again σ α)} {invariant : σ → Prop}
    (h : ∀ state, invariant state →
      Yields input anything (step state) (againGood invariant good))
    {state : σ} (hstate : invariant state) :
    Yields input now (Reader.iterate step state) good := by
  have hbounded (limit : Nat) (state : σ) (hstate : invariant state) :
      Yields input anything (repeatAtMost step limit state) good := by
    induction limit generalizing state with
    | zero => exact exhausted
    | succ limit ih =>
        refine read (h state hstate) fun outcome houtcome => ?_
        cases outcome with
        | again next => exact ih next houtcome
        | done result => exact pure houtcome
  exact skip fun limit => hbounded limit state hstate

end Repetition

end Yields

end Reader

end ScriptKinds
