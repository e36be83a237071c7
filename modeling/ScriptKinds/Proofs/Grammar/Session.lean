import ScriptKinds.Proofs.Grammar.Orderly
import ScriptKinds.Proofs.Grammar.ScriptNumbers
import ScriptKinds.Proofs.Grammar.SpellingRules

namespace ScriptKinds.Grammar

open Reader

/-- What can be asked of a parser. -/
inductive Request where
  | peek (ahead : Nat)
  | advance
  | expect (kind : TokenKind)
  /-- An expected token, with what to fail with. -/
  | expectOr (kind : TokenKind) (fault : Fault)
  | expectWord (word : String)
  | expectSemicolon
  | atOneOf (kinds : List TokenKind)
  | atWord (word : String)
  | hasTokens
  | offset
  | endOffset
  | freshId
  | expr (power : Power)
  /-- An expression of a form that its first token starts. -/
  | leading (form : LeadingForm)
  | stmt
  | statement (form : StatementForm)
  | block
  | parameters
  | target (expectation : String)
  | default
  | classTail

/-- What a parser answers. -/
inductive Answer where
  | token (token : Token)
  | flag (flag : Bool)
  | offset (offset : Nat)
  | done
  | id (id : NodeId)
  | expr (expr : Expr)
  | stmt (stmt : Stmt)
  | block (block : Block)
  | parameters (parameters : List Parameter)
  | target (target : Target)
  | default (default? : Option Expr)
  | classTail (superclass? : Option Expr) (members : List Member)

/-- The nodes with numbers in an answer.  A number that was asked for counts as one. -/
def Answer.numbered : Answer → List Numbered
  | .token _ | .flag _ | .offset _ | .done => []
  | .id fresh => [.construct fresh]
  | .expr tree => tree.numbered
  | .stmt tree => tree.numbered
  | .block tree => tree.numbered
  | .parameters trees => trees.flatMap Parameter.numbered
  | .target bound => targetNumbered bound
  | .default value? => exprNumbered? value?
  | .classTail superclass? members => exprNumbered? superclass? ++ memberNumbered members

/-- Fails with a fault that is given. -/
def failWith {α : Type} (fault : Fault) : Reader α := fun _ progress =>
  .error (.fault fault) progress

namespace Request

/-- How a parser answers a request. -/
def reader : Request → Reader Answer
  | peek ahead => return .token (← Reader.peek ahead)
  | advance => return .token (← Reader.advance)
  | expect kind => return .token (← Reader.expect kind)
  | expectOr kind fault => return .token (← Reader.expectOr kind (failWith fault))
  | expectWord word => return .token (← Reader.expectWord word)
  | expectSemicolon => do
      Reader.expectSemicolon
      return .done
  | atOneOf kinds => return .flag (← Reader.atOneOf kinds)
  | atWord word => return .flag (← Reader.atWord word)
  | hasTokens => return .flag (← Reader.hasTokens)
  | offset => return .offset (← Reader.offset)
  | endOffset => return .offset (← Reader.endOffset)
  | freshId => return .id (← Reader.freshId)
  | expr power => return .expr (← knot fun nt => nt.expr power)
  | leading form => return .expr (← knot fun nt => readLeading nt form)
  | stmt => return .stmt (← knot fun nt => nt.stmt)
  | statement form => return .stmt (← knot fun nt => readForm nt form)
  | block => return .block (← knot readBlock)
  | parameters => return .parameters (← knot readParameters)
  | target expectation => return .target (← knot fun nt => readTarget nt expectation)
  | default => return .default (← knot readDefault)
  | classTail => do
      let tail ← knot readClassTail
      return .classTail tail.1 tail.2

/-- Whether a request is for a token that may be missing. -/
def expects : Request → Bool
  | expect _ | expectOr _ _ | expectWord _ | expectSemicolon => true
  | _ => false

end Request

/-- A request with the state in which it was made and what came of it. -/
structure Turn where
  request : Request
  before : Progress
  outcome : EStateM.Result Failure Progress Answer

namespace Turn

/-- The state in which a turn leaves the parser. -/
def after (turn : Turn) : Progress :=
  match turn.outcome with
  | .ok _ after | .error _ after => after

/-- Whether a request has not been answered. -/
def failed (turn : Turn) : Bool :=
  match turn.outcome with
  | .ok _ _ => false
  | .error _ _ => true

/-- The numbers in what is answered. -/
def numbers (turn : Turn) : List NodeId :=
  match turn.outcome with
  | .ok answer _ => answer.numbered.map Numbered.id
  | .error _ _ => []

end Turn

/-- A request that is made in a state. -/
def Request.turn (request : Request) (input : Input) (before : Progress) : Turn :=
  ⟨request, before, request.reader input before⟩

/-- Requests one after the other, each in the state that the one before it has left,
whether it failed or not. -/
def session (input : Input) : List Request → Progress → List Turn
  | [], _ => []
  | request :: others, before =>
      request.turn input before :: session input others (request.turn input before).after

section Requests

variable {α β : Type} {input : Input} {request : Request}

theorem orderly_knot {reader : Nonterminals → Reader α}
    (h : ∀ nt : Nonterminals, nt.InOrder input → Orderly input (reader nt)) :
    Orderly input (knot reader) :=
  (h _ (nonterminals_inOrder input (depthOf input.tokens))).of_eq rfl

theorem carries_knot {reader : Nonterminals → Reader α} {nodes : α → List Numbered}
    (h : ∀ nt : Nonterminals, nt.Carrying → Carries 0 (reader nt) nodes) :
    Carries 0 (knot reader) nodes :=
  fun input => h _ (nonterminals_carrying (depthOf input.tokens)) input

theorem Request.orderly (h : ∀ kind fault, request ≠ .expectOr kind fault) :
    Orderly input request.reader := by
  cases request with
  | expectOr kind fault => exact absurd rfl (h kind fault)
  | expr | leading | stmt | statement | block | parameters | target | default | classTail =>
      exact .read (orderly_knot fun nt hnt => inferInstance) fun _ => inferInstance
  | _ =>
      unfold reader
      infer_instance

/-- A reader that, if it fails, does so in the state in which it starts. -/
class FailsAtOnce (reader : Reader α) : Prop where
  eq_before : ∀ {input before failure after},
    reader input before = .error failure after → after = before

section Failing

instance (result : α) : FailsAtOnce (pure result : Reader α) :=
  ⟨nofun⟩

instance : FailsAtOnce Reader.advance :=
  ⟨nofun⟩

instance (fault : Fault) : FailsAtOnce (failWith fault : Reader α) :=
  ⟨fun h => by cases h; rfl⟩

instance (expectation : String) (token : Token) :
    FailsAtOnce (failExpecting expectation token : Reader α) :=
  ⟨fun h => by cases h; rfl⟩

instance (look : Reader α) (view : Token → α) [hlook : Sees look view] (next : α → Reader β)
    [hnext : ∀ seen, FailsAtOnce (next seen)] : FailsAtOnce (look >>= next) where
  eq_before h := by
    rcases bind_error h with hfirst | ⟨value, middle, hfirst, hrest⟩
    · cases (hlook.eq_ok _ _).symm.trans hfirst
    · obtain ⟨-, rfl⟩ := Sees.run hfirst
      exact (hnext value).eq_before hrest

instance (condition : Prop) [Decidable condition] (yes no : Reader α) [FailsAtOnce yes]
    [FailsAtOnce no] : FailsAtOnce (if condition then yes else no) := by
  split <;> infer_instance

theorem FailsAtOnce.map {reader : Reader α} (h : FailsAtOnce reader) (view : α → β) :
    FailsAtOnce (do return view (← reader)) where
  eq_before hrun := by
    rcases bind_error hrun with hfirst | ⟨value, middle, -, hrest⟩
    · exact h.eq_before hfirst
    · cases hrest

instance (expectation : String) : FailsAtOnce (failHere expectation : Reader α) := by
  unfold failHere; infer_instance

instance (kind : TokenKind) (missing : Reader Token) [FailsAtOnce missing] :
    FailsAtOnce (expectOr kind missing) := by
  unfold expectOr; infer_instance

instance (kind : TokenKind) : FailsAtOnce (expect kind) := by
  unfold expect; infer_instance

instance (word : String) : FailsAtOnce (expectWord word) := by
  unfold expectWord; infer_instance

instance : FailsAtOnce expectSemicolon := by
  unfold expectSemicolon
  have hpass : FailsAtOnce (do let _ ← advance; return ()) := FailsAtOnce.map inferInstance _
  infer_instance

theorem Request.failsAtOnce (h : request.expects = true) : FailsAtOnce request.reader := by
  cases request with
  | expect kind => exact .map inferInstance Answer.token
  | expectOr kind fault => exact .map inferInstance Answer.token
  | expectWord word => exact .map inferInstance Answer.token
  | expectSemicolon => exact .map inferInstance fun _ => Answer.done
  | _ => cases h

end Failing

section Numbers

instance (fault : Fault) : Silent (failWith fault : Reader α) :=
  ⟨nofun⟩

theorem Request.carries (request : Request) : Carries 0 request.reader Answer.numbered := by
  cases request with
  | freshId => exact .fresh fun id => .pure (by simp [Answer.numbered, Numbered.id])
  | expr power => exact .read (carries_knot fun nt h => h.expr power) fun _ => .pure (zero_add _)
  | leading form =>
      exact .read (carries_knot fun nt h => carries_readLeading h form) fun _ => .pure (zero_add _)
  | stmt => exact .read (carries_knot fun nt h => h.stmt) fun _ => .pure (zero_add _)
  | statement form =>
      exact .read (carries_knot fun nt h => carries_readForm h form) fun _ => .pure (zero_add _)
  | block => exact .read (carries_knot fun nt h => carries_readBlock h) fun _ => .pure (zero_add _)
  | parameters =>
      exact .read (carries_knot fun nt h => carries_readParameters h) fun _ => .pure (zero_add _)
  | target expectation =>
      exact .read (carries_knot fun nt h => carries_readTarget h expectation)
        fun _ => .pure (zero_add _)
  | default =>
      exact .read (carries_knot fun nt h => carries_readDefault h) fun _ => .pure (zero_add _)
  | classTail =>
      exact .read (carries_knot fun nt h => carries_readClassTail h) fun _ => .pure (zero_add _)
  | _ => exact .skip fun _ => .pure rfl

theorem interval_of_carries {reader : Reader α} {nodes : α → List Numbered} {before after : Progress}
    {result : α} (h : Carries 0 reader nodes) (hrun : reader input before = .ok result after) :
    ((nodes result).map Numbered.id).Nodup ∧
      ∀ id ∈ (nodes result).map Numbered.id, before.nextId ≤ id ∧ id < after.nextId := by
  have hsum := h input before result after hrun
  rw [add_zero] at hsum
  have hnodup : (Multiset.range before.nextId + numbersOf (nodes result)).Nodup :=
    hsum ▸ Multiset.nodup_range after.nextId
  obtain ⟨-, hnumbers, hdisjoint⟩ := Multiset.nodup_add.mp hnodup
  refine ⟨Multiset.coe_nodup.mp hnumbers, fun id hid => ⟨?_, ?_⟩⟩
  · by_contra hlt
    exact Multiset.disjoint_left.mp hdisjoint (Multiset.mem_range.mpr (Nat.not_le.mp hlt)) hid
  · rw [← Multiset.mem_range, ← hsum]
    exact Multiset.mem_add.mpr (.inr hid)

end Numbers

end Requests

section Turns

variable {input : Input} {requests : List Request} {turn : Turn}

theorem precedes_of_expectOr {kind : TokenKind} {fault : Fault} {before after : Progress}
    {token : Token} (h : Reader.expectOr kind (failWith fault) input before = .ok token after) :
    before.Precedes input.tokens after := by
  obtain ⟨found, middle, hfound, hrest⟩ := bind_ok h
  obtain ⟨-, rfl⟩ := Sees.run hfound
  split at hrest
  · exact Orderly.ok hrest
  · cases hrest

theorem Request.precedes_after (request : Request) (input : Input) (before : Progress) :
    before.Precedes input.tokens (request.turn input before).after := by
  by_cases hgiven : ∃ kind fault, request = .expectOr kind fault
  · obtain ⟨kind, fault, rfl⟩ := hgiven
    rw [Turn.after, turn]
    split
    · rename_i heq
      obtain ⟨token, middle, htoken, hanswer⟩ := bind_ok heq
      cases hanswer
      exact precedes_of_expectOr htoken
    · rename_i heq
      have hfails : FailsAtOnce (Request.expectOr kind fault).reader := Request.failsAtOnce rfl
      obtain rfl := hfails.eq_before heq
      exact .refl _
  · have horderly : Orderly input request.reader :=
      Request.orderly fun kind fault heq => hgiven ⟨kind, fault, heq⟩
    rw [Turn.after, turn]
    split
    · exact horderly.ok ‹_›
    · exact horderly.error ‹_›

theorem Request.numbers_turn (request : Request) (input : Input) (before : Progress) :
    (request.turn input before).numbers.Nodup ∧
      ∀ id ∈ (request.turn input before).numbers,
        before.nextId ≤ id ∧ id < (request.turn input before).after.nextId := by
  rw [Turn.numbers, Turn.after, turn]
  cases hrun : request.reader input before with
  | ok answer after => exact interval_of_carries request.carries hrun
  | error failure after => exact ⟨.nil, nofun⟩

theorem Request.after_of_failed {request : Request} {before : Progress}
    (hexpects : request.expects = true) (hfailed : (request.turn input before).failed = true) :
    (request.turn input before).after = before := by
  rw [Turn.failed, turn] at hfailed
  rw [Turn.after, turn]
  cases hrun : request.reader input before with
  | ok => simp [hrun] at hfailed
  | error failure after => exact (Request.failsAtOnce hexpects).eq_before hrun

theorem turn_of_mem {before : Progress} (h : turn ∈ session input requests before) :
    turn = turn.request.turn input turn.before ∧ before.Precedes input.tokens turn.before := by
  induction requests generalizing before with
  | nil => cases h
  | cons request others ih =>
      rcases List.mem_cons.mp h with rfl | hothers
      · exact ⟨rfl, .refl before⟩
      · obtain ⟨heq, hprecedes⟩ := ih hothers
        exact ⟨heq, (request.precedes_after input before).trans hprecedes⟩

theorem request_of_mem {before : Progress} (h : turn ∈ session input requests before) :
    turn.request ∈ requests := by
  induction requests generalizing before with
  | nil => cases h
  | cons request others ih =>
      rcases List.mem_cons.mp h with rfl | hothers
      · exact List.mem_cons_self
      · exact List.mem_cons_of_mem _ (ih hothers)

theorem pairwise_session (input : Input) (requests : List Request) (before : Progress) :
    (session input requests before).Pairwise fun earlier later =>
      earlier.after.Precedes input.tokens later.before := by
  induction requests generalizing before with
  | nil => exact .nil
  | cons request others ih =>
      exact .cons (fun later hlater => (turn_of_mem hlater).2) (ih _)

theorem numbers_of_mem {before : Progress} (h : turn ∈ session input requests before) :
    turn.numbers.Nodup ∧
      ∀ id ∈ turn.numbers, turn.before.nextId ≤ id ∧ id < turn.after.nextId := by
  rw [(turn_of_mem h).1]
  exact turn.request.numbers_turn input turn.before

theorem nodup_numbers (input : Input) (requests : List Request) (before : Progress) :
    ((session input requests before).flatMap Turn.numbers).Nodup := by
  refine List.nodup_flatMap.mpr ⟨fun turn hturn => (numbers_of_mem hturn).1, ?_⟩
  refine (pairwise_session input requests before).imp_of_mem ?_
  intro earlier later hearlier hlater hprecedes id hid hid'
  have hend := ((numbers_of_mem hearlier).2 id hid).2
  have hstart := ((numbers_of_mem hlater).2 id hid').1
  exact absurd (hend.trans_le (hprecedes.nextId_le.trans hstart)) (Nat.lt_irrefl id)

end Turns

theorem exists_toList_ofList (tokens : List Token) :
    ∃ body last, (TokenStream.ofList tokens).toList = body ++ [last] ∧
      last.kind = .endOfInput ∧ (tokens = body ++ [last] ∨ tokens = body) := by
  rw [TokenStream.ofList]
  split
  · exact ⟨[], .endAt 0 false, rfl, rfl, .inr (List.getLast?_eq_none_iff.mp ‹_›)⟩
  · rename_i token hlast
    split
    · refine ⟨tokens.dropLast, token, rfl, eq_of_beq ‹_›, .inl ?_⟩
      exact (List.dropLast_append_getLast? token hlast).symm
    · exact ⟨tokens, .endAt token.span.stop false, rfl, rfl, .inr rfl⟩

theorem size_ofList_le (tokens : List Token) :
    (TokenStream.ofList tokens).size ≤ tokens.length + 1 := by
  obtain ⟨body, last, hlist, -, hgiven⟩ := exists_toList_ofList tokens
  rw [← TokenStream.length_toList, hlist, List.length_append]
  rcases hgiven with rfl | rfl <;> simp

/-- Whatever is asked of a parser in turn, the tokens are those that it was given and end
the text, no turn goes back or passes the last token, a token that is missing where it
is asked for leaves the parser as it was, and no number is handed out twice.  The places
that are looked at have to fit 64 bits and the numbers a signed word of 32, and then all
that are formed do. -/
theorem session_sound (file : String) (tokens : List Token) (grammar : Grammar)
    (requests : List Request)
    (hpeeks : ∀ ahead, .peek ahead ∈ requests → tokens.length + ahead < 2 ^ 64)
    (hids : ∀ turn ∈ session ⟨.ofList tokens, file, grammar⟩ requests .start,
      turn.after.nextId < 2 ^ 31) :
    let input : Input := ⟨.ofList tokens, file, grammar⟩
    let turns := session input requests .start
    (∃ body last, input.tokens.toList = body ++ [last] ∧ last.kind = .endOfInput ∧
      (tokens = body ++ [last] ∨ tokens = body)) ∧
    (∀ turn ∈ turns, turn.before.place ≤ turn.after.place ∧
      turn.after.place < input.tokens.size ∧ turn.before.nextId ≤ turn.after.nextId ∧
      (∀ id ∈ turn.numbers, turn.before.nextId ≤ id ∧ id < turn.after.nextId ∧ id < 2 ^ 31) ∧
      ∀ ahead, turn.request = .peek ahead → turn.before.place + ahead < 2 ^ 64) ∧
    (turns.Pairwise fun earlier later => earlier.after.place ≤ later.before.place ∧
      earlier.after.nextId ≤ later.before.nextId) ∧
    (∀ turn ∈ turns, turn.request.expects = true → turn.failed = true →
      turn.after = turn.before) ∧
    (turns.flatMap Turn.numbers).Nodup := by
  intro input turns
  refine ⟨exists_toList_ofList tokens, fun turn hturn => ?_, ?_, fun turn hturn => ?_,
    nodup_numbers input requests .start⟩
  · obtain ⟨heq, hbefore⟩ := turn_of_mem hturn
    have hafter := turn.request.precedes_after input turn.before
    rw [← heq] at hafter
    have hplace : turn.after.place < input.tokens.size := by
      have hmax := (hbefore.trans hafter).place_le_max
      exact Nat.lt_succ_of_le (hmax.trans (Nat.max_le.mpr ⟨Nat.zero_le _, Nat.le_refl _⟩))
    refine ⟨hafter.place_le, hplace, hafter.nextId_le, fun id hid => ?_, fun ahead hpeek => ?_⟩
    · obtain ⟨hlower, hupper⟩ := (numbers_of_mem hturn).2 id hid
      exact ⟨hlower, hupper, hupper.trans (hids turn hturn)⟩
    · have hmem : Request.peek ahead ∈ requests := hpeek ▸ request_of_mem hturn
      have hsize : input.tokens.size ≤ tokens.length + 1 := size_ofList_le tokens
      have hbound := hpeeks ahead hmem
      have hle := hafter.place_le
      omega
  · exact (pairwise_session input requests .start).imp fun hprecedes =>
      ⟨hprecedes.place_le, hprecedes.nextId_le⟩
  · rw [(turn_of_mem hturn).1]
    exact Request.after_of_failed

/-- The tokens of `a + ;`. -/
def brokenSum : List Token :=
  [⟨.identifier, "a", ⟨0, 1⟩, false⟩, ⟨.plus, "+", ⟨2, 3⟩, false⟩,
    ⟨.semicolon, ";", ⟨4, 5⟩, false⟩]

/-- The number of the name in front of the missing operand is not handed out again. -/
theorem session_sound_of_broken_sum :
    let requests : List Request := [.expr .none, .expect .comma, .expectSemicolon, .freshId, .peek 7]
    let turns := session ⟨.ofList brokenSum, "sum.js", .script⟩ requests .start
    turns.map Turn.failed = [true, true, false, false, false] ∧
      turns.map Turn.after = [⟨2, 2⟩, ⟨2, 2⟩, ⟨3, 2⟩, ⟨3, 3⟩, ⟨3, 3⟩] ∧
      (∀ ahead, .peek ahead ∈ requests → brokenSum.length + ahead < 2 ^ 64) ∧
      (∀ turn ∈ turns, turn.after.nextId < 2 ^ 31) ∧
      (∀ turn ∈ turns, turn.request.expects = true → turn.failed = true →
        turn.after = turn.before) ∧
      turns.flatMap Turn.numbers = [2] ∧ (turns.flatMap Turn.numbers).Nodup := by
  intro requests turns
  have hafter : turns.map Turn.after = [⟨2, 2⟩, ⟨2, 2⟩, ⟨3, 2⟩, ⟨3, 3⟩, ⟨3, 3⟩] := rfl
  have hpeeks (ahead : Nat) (hpeek : .peek ahead ∈ requests) :
      brokenSum.length + ahead < 2 ^ 64 := by
    simp [requests] at hpeek
    subst hpeek
    decide
  have hbound : ∀ after ∈ turns.map Turn.after, after.nextId < 2 ^ 31 := by
    rw [hafter]
    decide
  have hids (turn : Turn) (hturn : turn ∈ turns) : turn.after.nextId < 2 ^ 31 :=
    hbound turn.after (List.mem_map_of_mem hturn)
  obtain ⟨-, -, -, hmissing, hnumbers⟩ :=
    session_sound "sum.js" brokenSum .script requests hpeeks hids
  exact ⟨rfl, hafter, hpeeks, hids, hmissing, rfl, hnumbers⟩

end ScriptKinds.Grammar
