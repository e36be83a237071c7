import ScriptKinds.Proofs.Grammar.RegexParts
import ScriptKinds.Proofs.Grammar.SpellingRules

/-!
Readers that get ahead.

A reader that succeeds never goes back and never leaves the stream, and most of
them pass a token.  So a repetition of such a reader comes to its end before its
bound does.  The rules below follow the ways in which readers are put together.
They can be told to leave the bounds aside, in which case they only say how far
a reader gets.
-/

namespace ScriptKinds

/-- A stream in which nothing starts, goes on with or is named by a token that
ends the text. -/
structure Input.Terminated (input : Input) : Prop extends input.Closed where
  trailing : input.grammar.trailing? .endOfInput = none
  nameless : ∀ place, (input.tokens.get place).kind = .endOfInput →
    (input.tokens.get place).isMemberName = false

namespace Reader

variable {α β σ : Type}

/-- A reader that succeeds and stays where it is. -/
class Still (reader : Reader α) : Prop where
  eq_ok : ∀ input before, ∃ result after,
    reader input before = .ok result after ∧ after.place = before.place

section Standing

instance (reader : Reader α) (view : Token → α) [h : Sees reader view] : Still reader :=
  ⟨fun input before => ⟨_, _, h.eq_ok input before, rfl⟩⟩

instance (ahead : Nat) : Still (peek ahead) :=
  ⟨fun _ _ => ⟨_, _, rfl, rfl⟩⟩

instance : Still freshId :=
  ⟨fun _ _ => ⟨_, _, rfl, rfl⟩⟩

instance : Still bound :=
  ⟨fun _ _ => ⟨_, _, rfl, rfl⟩⟩

instance : Still endOffset where
  eq_ok := by
    rintro input ⟨place, nextId⟩
    cases place <;> exact ⟨_, _, rfl, rfl⟩

instance (result : α) : Still (pure result : Reader α) :=
  ⟨fun _ _ => ⟨_, _, rfl, rfl⟩⟩

instance (reader : Reader α) (next : α → Reader β) [first : Still reader]
    [second : ∀ result, Still (next result)] : Still (reader >>= next) where
  eq_ok input before := by
    obtain ⟨part, middle, hfirst, hmiddle⟩ := first.eq_ok input before
    obtain ⟨result, after, hnext, hafter⟩ := (second part).eq_ok input middle
    refine ⟨result, after, ?_, hafter.trans hmiddle⟩
    change EStateM.bind (reader input) (fun result => next result input) before = _
    rw [EStateM.bind, hfirst]
    exact hnext

instance (start : Nat) : Still (spanFrom start) := by
  unfold spanFrom
  infer_instance

end Standing

/-- How a reader that starts at a place leaves the tokens.  If the bounds count,
none of them may be the reason of a failure, and reading breaks off only at a
regular expression that is not divided. -/
inductive Outcome (input : Input) (total : Prop) (place : Nat) (moved : α → Prop) :
    EStateM.Result Failure Progress α → Prop
  | ok {result : α} {after : Progress} (hle : place ≤ after.place)
      (hlast : after.place ≤ input.tokens.body.size)
      (hmoved : moved result → place < after.place) :
      Outcome input total place moved (.ok result after)
  | error {failure : Failure} {after : Progress} (htotal : total → failure ≠ .exhausted)
      (hbroken : failure = .broken → ∃ place, input.UndividedAt place) :
      Outcome input total place moved (.error failure after)

theorem Outcome.imp {input : Input} {total : Prop} {place lower : Nat} {moved other : α → Prop}
    {outcome : EStateM.Result Failure Progress α} (h : Outcome input total place moved outcome)
    (hlower : lower ≤ place) (hmoved : ∀ result, other result → lower < place ∨ moved result) :
    Outcome input total lower other outcome := by
  cases h with
  | ok hle hlast hresult =>
      refine .ok (Nat.le_trans hlower hle) hlast fun hother => ?_
      rcases hmoved _ hother with hlt | hlater
      · exact Nat.lt_of_lt_of_le hlt hle
      · exact Nat.lt_of_le_of_lt hlower (hresult hlater)
  | error htotal hbroken => exact .error htotal hbroken

theorem Outcome.bind {total : Prop} {place : Nat} {moved : α → Prop} {firstMoved : β → Prop}
    {first : Reader β} {next : β → Reader α} {input : Input} {before : Progress}
    (hfirst : Outcome input total place firstMoved (first input before))
    (hnext : ∀ part middle, place ≤ middle.place → middle.place ≤ input.tokens.body.size →
      (firstMoved part → place < middle.place) →
        Outcome input total place moved (next part input middle)) :
    Outcome input total place moved ((first >>= next) input before) := by
  change Outcome input total place moved
    (EStateM.bind (first input) (fun result => next result input) before)
  unfold EStateM.bind
  cases hrun : first input before with
  | ok part middle =>
      rw [hrun] at hfirst
      obtain ⟨hle, hlast, hmoved⟩ := hfirst
      exact hnext part middle hle hlast hmoved
  | error failure middle =>
      rw [hrun] at hfirst
      obtain _ | ⟨htotal, hbroken⟩ := hfirst
      exact .error htotal hbroken

/-- From a place at or behind some floor, at a token of some sort, a reader does
not go back, and it gets ahead if its result says so. -/
def Advances (input : Input) (total : Prop) (now : Token → Prop) (floor : Nat) (reader : Reader α)
    (moved : α → Prop) : Prop :=
  input.Terminated → ∀ before : Progress, floor ≤ before.place →
    before.place ≤ input.tokens.body.size → now (input.tokens.get before.place) →
      Outcome input total before.place moved (reader input before)

/-- Every result shows that a token has been passed. -/
abbrev strictly (_ : α) : Prop :=
  True

/-- No result shows that a token has been passed. -/
abbrev weakly (_ : α) : Prop :=
  False

/-- A turn of a repetition gets ahead if there is another one. -/
def movedAgain : Again σ α → Prop
  | .again _ => True
  | .done _ => False

/-- A token that does not end the text. -/
def continues (token : Token) : Prop :=
  token.kind ≠ .endOfInput

namespace Advances

variable {input : Input} {total : Prop} {now : Token → Prop} {floor : Nat} {reader : Reader α}
  {moved : α → Prop}

theorem pure {result : α} (h : ¬moved result) :
    Advances input total now floor (Pure.pure result) moved :=
  fun _ _ _ hlast _ => .ok (Nat.le_refl _) hlast fun hmoved => absurd hmoved h

theorem fail {cause : Cause} {offset : Nat} :
    Advances input total now floor (failAt cause offset) moved :=
  fun _ _ _ _ _ => .error (fun _ => nofun) nofun

theorem failHere {expectation : String} :
    Advances input total now floor (Reader.failHere expectation) moved :=
  fun _ _ _ _ _ => .error (fun _ => nofun) nofun

theorem exhausted (h : ¬total) : Advances input total now floor Reader.exhausted moved :=
  fun _ _ _ _ _ => .error (fun htotal => absurd htotal h) nofun

theorem beyond (h : input.tokens.body.size < floor) :
    Advances input total now floor reader moved := by
  intro _ before hfloor hlast
  omega

theorem mono {lower : Nat} {sort : Token → Prop} {other : α → Prop}
    (h : Advances input total sort lower reader other) (hfloor : lower ≤ floor)
    (hnow : ∀ token, now token → sort token) (hmoved : ∀ result, moved result → other result) :
    Advances input total now floor reader moved := by
  intro hterminated before hbefore hlast htoken
  refine (h hterminated before (Nat.le_trans hfloor hbefore) hlast (hnow _ htoken)).imp ?_ ?_
  · exact Nat.le_refl _
  · exact fun result hresult => .inr (hmoved result hresult)

theorem given_now {sort : Token → Prop} (hnow : ∀ token, now token → sort token)
    (h : Advances input total sort floor reader moved) :
    Advances input total now floor reader moved :=
  h.mono (Nat.le_refl _) hnow fun _ => id

theorem anywhere (h : Advances input total anything floor reader moved) :
    Advances input total now floor reader moved :=
  h.given_now fun _ _ => trivial

theorem later (h : Advances input total now floor reader moved) :
    Advances input total now (floor + 1) reader moved :=
  h.mono (Nat.le_succ _) (fun _ => id) fun _ => id

theorem weaken (h : Advances input total now floor reader strictly) :
    Advances input total now floor reader moved :=
  h.mono (Nat.le_refl _) (fun _ => id) fun _ _ => trivial

theorem loosen (h : Advances input total anything floor reader strictly) :
    Advances input total now floor reader moved :=
  h.anywhere.weaken

theorem at_input (h : Advances input total now floor (fun _ => reader input) moved) :
    Advances input total now floor reader moved :=
  h

theorem to_input (h : Advances input total now floor reader moved) :
    Advances input total now floor (fun _ => reader input) moved :=
  h

theorem of_terminated (h : input.Terminated → Advances input total now floor reader moved) :
    Advances input total now floor reader moved :=
  fun hterminated => h hterminated hterminated

section Turns

variable {first : Reader β} {next : β → Reader α} {firstMoved : β → Prop}

theorem read (hfirst : Advances input total now floor first firstMoved)
    (h : ∀ result, Advances input total anything floor (next result) moved) :
    Advances input total now floor (first >>= next) moved := by
  intro hterminated before hfloor hlast hnow
  refine (hfirst hterminated before hfloor hlast hnow).bind fun part middle hle hmiddle _ => ?_
  refine (h part hterminated middle (Nat.le_trans hfloor hle) hmiddle trivial).imp hle ?_
  exact fun result hresult => .inr hresult

theorem move (hfirst : Advances input total now floor first strictly)
    (h : ∀ result, Advances input total anything (floor + 1) (next result) weakly) :
    Advances input total now floor (first >>= next) moved := by
  intro hterminated before hfloor hlast hnow
  refine (hfirst hterminated before hfloor hlast hnow).bind fun part middle hle hmiddle hmoved => ?_
  have hlt := hmoved trivial
  refine (h part hterminated middle (by omega) hmiddle trivial).imp hle ?_
  exact fun result _ => .inl hlt

theorem skip [hstill : Still first]
    (h : ∀ result, Advances input total now floor (next result) moved) :
    Advances input total now floor (first >>= next) moved := by
  intro hterminated before hfloor hlast hnow
  obtain ⟨part, middle, hrun, hplace⟩ := hstill.eq_ok input before
  change Outcome _ _ _ _ (EStateM.bind (first input) (fun result => next result input) before)
  rw [EStateM.bind, hrun, ← hplace]
  rw [← hplace] at hfloor hlast hnow
  exact h part hterminated middle hfloor hlast hnow

theorem see {view : Token → β} [hsees : Sees first view]
    (h : ∀ token, now token →
      Advances input total (· = token) floor (next (view token)) moved) :
    Advances input total now floor (first >>= next) moved := by
  intro hterminated before hfloor hlast hnow
  change Outcome _ _ _ _ (EStateM.bind (first input) (fun result => next result input) before)
  rw [EStateM.bind, hsees.eq_ok]
  exact h _ hnow hterminated before hfloor hlast rfl

theorem see_input {view : Token → β} [Sees first view]
    (h : ∀ token, now token →
      Advances input total (· = token) floor (next (view token)) moved) :
    Advances input total now floor (fun input => first input >>= fun result => next result input)
      moved :=
  see h

theorem given {value : β} (h : Advances input total now floor (next value) moved) :
    Advances input total now floor (Pure.pure value >>= next) moved :=
  h

theorem fail_bind {cause : Cause} {offset : Nat} :
    Advances input total now floor (failAt cause offset >>= next) moved :=
  fun _ _ _ _ _ => .error (fun _ => nofun) nofun

end Turns

theorem peek_input {ahead : Nat} {next : Token → Reader α}
    (h : ∀ token, Advances input total now floor (next token) moved) :
    Advances input total now floor
      (fun input => peek ahead input >>= fun token => next token input) moved :=
  fun hterminated before hfloor hlast hnow => h _ hterminated before hfloor hlast hnow

theorem ite {condition : Prop} [Decidable condition] {yes no : Reader α}
    (hyes : condition → Advances input total now floor yes moved)
    (hno : ¬condition → Advances input total now floor no moved) :
    Advances input total now floor (if condition then yes else no) moved := by
  split
  · exact hyes ‹_›
  · exact hno ‹_›

section Tokens

theorem pass : Advances input total now floor advance weakly := by
  intro _ before _ hlast _
  refine .ok ?_ ?_ nofun
  · dsimp only
    split <;> omega
  · dsimp only
    split <;> omega

theorem advance_continues (hnow : ∀ token, now token → continues token) :
    Advances input total now floor advance strictly := by
  intro hterminated before _ hlast htoken
  have hlt := hterminated.lt_size (hnow _ htoken)
  rw [advance, if_pos hlt]
  exact .ok (Nat.le_succ _) hlt fun _ => Nat.lt_succ_self _

theorem advance_name (hnow : ∀ token, now token → token.isMemberName = true) :
    Advances input total now floor advance strictly := by
  intro hterminated before hfloor hlast htoken
  have hcontinues : continues (input.tokens.get before.place) := by
    intro hkind
    have hname := hnow _ htoken
    rw [hterminated.nameless _ hkind] at hname
    cases hname
  have hpassed : Advances input total continues floor advance strictly :=
    advance_continues fun _ => id
  exact hpassed hterminated before hfloor hlast hcontinues

theorem take {next : Token → Reader α} (hnow : ∀ token, now token → continues token)
    (h : ∀ token, Advances input total anything (floor + 1) (next token) weakly) :
    Advances input total now floor (advance >>= next) moved :=
  move (advance_continues hnow) h

theorem take_name {next : Token → Reader α}
    (hnow : ∀ token, now token → token.isMemberName = true)
    (h : ∀ token, Advances input total anything (floor + 1) (next token) weakly) :
    Advances input total now floor (advance >>= next) moved :=
  move (advance_name hnow) h

theorem expectOr {kind : TokenKind} {expectation : String} (hkind : kind ≠ .endOfInput) :
    Advances input total now floor (Reader.expectOr kind (Reader.failHere expectation))
      strictly := by
  refine see fun token _ => ite (fun hfound => advance_continues ?_) fun _ => failHere
  rintro _ rfl htoken
  exact hkind ((beq_iff_eq.mp hfound).symm.trans htoken)

theorem expect {kind : TokenKind} (hkind : kind ≠ .endOfInput) :
    Advances input total now floor (Reader.expect kind) strictly :=
  expectOr hkind

theorem expectWord {word : String} :
    Advances input total now floor (Reader.expectWord word) weakly :=
  see fun _ _ => ite (fun _ => pass) fun _ => failHere

theorem expectSemicolon : Advances input total now floor Reader.expectSemicolon weakly := by
  unfold Reader.expectSemicolon
  refine see fun token _ => ite (fun _ => read pass fun _ => pure nofun) fun _ => ?_
  exact ite (fun _ => pure nofun) fun _ => fail

theorem skipIf {kind : TokenKind} :
    Advances input total now floor (Reader.skipIf kind) weakly :=
  see fun _ _ => ite (fun _ => read pass fun _ => pure nofun) fun _ => pure nofun

theorem skipIf_else {kind : TokenKind} (hkind : kind ≠ .endOfInput) {yes no : Reader α}
    (hyes : Advances input total anything (floor + 1) yes weakly)
    (hno : Advances input total now floor no moved) :
    Advances input total now floor
      (Reader.skipIf kind >>= fun passed => if passed then yes else no) moved := by
  have heq : (Reader.skipIf kind >>= fun passed => if passed then yes else no) =
      atKind kind >>= fun present => if present then advance >>= fun _ => yes else no := by
    unfold Reader.skipIf
    rw [bind_assoc]
    congr 1
    funext present
    cases present <;> rfl
  rw [heq]
  refine see fun token htoken => ite (fun hfound => take ?_ fun _ => hyes) fun _ => ?_
  · rintro _ rfl hends
    exact hkind ((beq_iff_eq.mp hfound).symm.trans hends)
  · exact hno.given_now fun _ hsame => hsame ▸ htoken

theorem separator {close : TokenKind} :
    Advances input total now floor (Reader.separator close) weakly := by
  unfold Reader.separator
  refine see fun token _ => ite (fun _ => pure nofun) fun _ => ?_
  exact read (expect nofun) fun _ => pure nofun

end Tokens

section Repetition

variable {item : Reader α} {others : Reader (List α)} {finished : Reader Bool}

theorem optional {present : Bool} (h : Advances input total anything floor item moved) :
    Advances input total now floor (Reader.optional present item) weakly := by
  unfold Reader.optional
  exact ite (fun _ => read h.anywhere fun _ => pure nofun) fun _ => pure nofun

theorem with_bound {next : Nat → Reader α}
    (h : ∀ limit, input.tokens.body.size < floor + limit →
      Advances input total now floor (next limit) moved) :
    Advances input total now floor (bound >>= next) moved := by
  intro hterminated before hfloor hlast hnow
  refine h (input.tokens.size + 1) ?_ hterminated before hfloor hlast hnow
  rw [TokenStream.size]
  omega

theorem collectUntil [Still finished]
    (h : Advances input total anything floor others strictly) :
    Advances input total now floor (Reader.collectUntil finished others) weakly := by
  have hbounded (limit : Nat) : ∀ floor, input.tokens.body.size < floor + limit →
      Advances input total anything floor others strictly →
        Advances input total anything floor (collectAtMost finished others limit) weakly := by
    induction limit with
    | zero => exact fun floor hsize _ => beyond hsize
    | succ limit ih =>
        intro floor hsize hitem
        refine skip fun ends => ite (fun _ => pure nofun) fun _ => move hitem fun first => ?_
        exact read (ih (floor + 1) (by omega) hitem.later) fun _ => pure nofun
  exact with_bound fun limit hsize => (hbounded limit floor hsize h).anywhere

theorem separated (h : Advances input total anything floor item strictly) :
    Advances input total now floor (Reader.separated item) strictly := by
  have hbounded (limit : Nat) : ∀ floor, input.tokens.body.size < floor + limit →
      Advances input total anything floor item strictly →
        Advances input total anything floor (separatedAtMost item limit) strictly := by
    induction limit with
    | zero => exact fun floor hsize _ => beyond hsize
    | succ limit ih =>
        intro floor hsize hitem
        refine move hitem fun first => read skipIf fun more => ite (fun _ => ?_) fun _ => pure nofun
        exact read (ih (floor + 1) (by omega) hitem.later) fun _ => pure nofun
  exact with_bound fun limit hsize => (hbounded limit floor hsize h).anywhere

theorem iterate {step : σ → Reader (Again σ α)}
    (h : ∀ state, Advances input total anything floor (step state) movedAgain) (state : σ) :
    Advances input total now floor (Reader.iterate step state) weakly := by
  have hbounded (limit : Nat) : ∀ floor state, input.tokens.body.size < floor + limit →
      (∀ state, Advances input total anything floor (step state) movedAgain) →
        Advances input total anything floor (repeatAtMost step limit state) weakly := by
    induction limit with
    | zero => exact fun floor _ hsize _ => beyond hsize
    | succ limit ih =>
        intro floor state hsize hstep hterminated before hfloor hlast hnow
        refine (hstep state hterminated before hfloor hlast hnow).bind ?_
        intro turn middle hle hmiddle hmoved
        cases turn with
        | done result => exact .ok hle hmiddle nofun
        | again next =>
            have hlt := hmoved trivial
            refine (ih (floor + 1) next (by omega) (fun state => (hstep state).later) hterminated
              middle (by omega) hmiddle trivial).imp hle ?_
            exact fun result => nofun
  exact with_bound fun limit hsize => (hbounded limit floor state hsize h).anywhere

end Repetition

end Advances

end Reader

end ScriptKinds
