import ScriptKinds.Proofs.Grammar.Carrying
import ScriptKinds.Proofs.Grammar.Spelling

namespace ScriptKinds

/-- A stream whose last token ends the text, in a grammar in which nothing
starts with such a token. -/
structure Input.Closed (input : Input) : Prop where
  ends : input.tokens.last.kind = .endOfInput
  leading : input.grammar.leading? .endOfInput = none
  statement : input.grammar.statement? .endOfInput = none

theorem Input.Closed.lt_size {input : Input} (h : input.Closed) {place : Nat}
    (hkind : (input.tokens.get place).kind ≠ .endOfInput) : place < input.tokens.body.size :=
  TokenStream.lt_size h.ends hkind

namespace Reader

variable {α β σ : Type}

/-- A reader that does not go back. -/
class Forward (reader : Reader α) : Prop where
  place_le : ∀ {input before result after},
    reader input before = .ok result after → before.place ≤ after.place

/-- A reader that looks at the current token and leaves everything as it is. -/
class Sees (reader : Reader α) (view : outParam (Token → α)) : Prop where
  eq_ok : ∀ input before, reader input before = .ok (view (input.tokens.get before.place)) before

theorem Sees.run {reader : Reader α} {view : Token → α} [h : Sees reader view] {input : Input}
    {before after : Progress} {result : α} (hrun : reader input before = .ok result after) :
    result = view (input.tokens.get before.place) ∧ after = before := by
  have heq := hrun.symm.trans (h.eq_ok input before)
  injection heq with hresult hafter
  exact ⟨hresult, hafter⟩

/-- A reader that turns the items held into those of its result, if it starts
at a token with a property. -/
def Spells (input : Input) (now : Token → Prop) (held : List Item) (reader : Reader α)
    (items : α → List Item) : Prop :=
  input.Closed → ∀ before result after first, now (input.tokens.get before.place) →
    reader input before = .ok result after → Spelled input.tokens first before.place held →
      Spelled input.tokens first after.place (items result)

/-- No condition on the token at which a reader starts. -/
def anything (_ : Token) : Prop :=
  True

/-- A result as one node. -/
abbrev asNode (form : α → Node) (result : α) : List Item :=
  [.node (form result)]

/-- A list of results as nodes. -/
abbrev asNodes (form : α → Node) (results : List α) : List Item :=
  results.map fun result => .node (form result)

section Progress

instance (result : α) : Forward (pure result : Reader α) :=
  ⟨fun h => by cases h; exact Nat.le_refl _⟩

instance (reader : Reader α) (next : α → Reader β) [Forward reader]
    [∀ first, Forward (next first)] : Forward (reader >>= next) where
  place_le h := by
    obtain ⟨first, middle, hfirst, hnext⟩ := bind_ok h
    exact Nat.le_trans (Forward.place_le hfirst) (Forward.place_le hnext)

instance (condition : Prop) [Decidable condition] (yes no : Reader α) [Forward yes]
    [Forward no] : Forward (if condition then yes else no) := by
  split <;> infer_instance

instance (reader : Reader α) (view : Token → α) [Sees reader view] : Forward reader where
  place_le h := by
    obtain ⟨_, rfl⟩ := Sees.run h
    exact Nat.le_refl _

instance (ahead : Nat) : Forward (peek ahead) :=
  ⟨fun h => by cases h; exact Nat.le_refl _⟩

instance : Forward advance where
  place_le h := by
    cases h
    dsimp only
    split <;> omega

instance : Forward freshId :=
  ⟨fun h => by cases h; exact Nat.le_refl _⟩

instance : Forward endOffset where
  place_le {_ before _ _} h := by
    obtain ⟨place, nextId⟩ := before
    cases place <;> cases h <;> exact Nat.le_refl _

instance : Forward bound :=
  ⟨fun h => by cases h; exact Nat.le_refl _⟩

instance : Sees current fun token => token :=
  ⟨fun _ _ => rfl⟩

instance : Sees offset fun token => token.span.start :=
  ⟨fun _ _ => rfl⟩

instance (kind : TokenKind) : Sees (atKind kind) fun token => token.kind == kind :=
  ⟨fun _ _ => rfl⟩

instance (kinds : List TokenKind) : Sees (atOneOf kinds) fun token => kinds.contains token.kind :=
  ⟨fun _ _ => rfl⟩

instance (word : String) : Sees (atWord word) fun token => token.isWord word :=
  ⟨fun _ _ => rfl⟩

instance : Sees hasTokens fun token => token.kind != .endOfInput :=
  ⟨fun _ _ => rfl⟩

instance (cause : Cause) (offset : Nat) : Forward (failAt cause offset : Reader α) :=
  ⟨fun h => by cases h⟩

instance (expectation : String) (token : Token) :
    Forward (failExpecting expectation token : Reader α) :=
  inferInstanceAs (Forward (failAt _ _))

instance (expectation : String) : Forward (failHere expectation : Reader α) := by
  unfold failHere; infer_instance

instance (kind : TokenKind) (failure : Reader Token) [Forward failure] :
    Forward (expectOr kind failure) := by
  unfold expectOr; infer_instance

instance (kind : TokenKind) : Forward (expect kind) := by
  unfold expect; infer_instance

instance (word : String) : Forward (expectWord word) := by
  unfold expectWord; infer_instance

instance : Forward expectSemicolon := by
  unfold expectSemicolon; infer_instance

instance (kind : TokenKind) : Forward (skipIf kind) := by
  unfold skipIf; infer_instance

instance (close : TokenKind) : Forward (separator close) := by
  unfold separator; infer_instance

instance (start : Nat) : Forward (spanFrom start) := by
  unfold spanFrom; infer_instance

instance (finished : Reader Bool) (item : Reader (List α)) [Forward finished] [Forward item] :
    Forward (collectUntil finished item) := by
  have hbounded (limit : Nat) : Forward (collectAtMost finished item limit) := by
    induction limit with
    | zero => exact ⟨fun h => by cases h⟩
    | succ limit ih =>
        unfold collectAtMost
        infer_instance
  unfold collectUntil
  infer_instance

end Progress

namespace Spells

variable {input : Input} {now : Token → Prop} {held : List Item} {reader : Reader α}
  {items : α → List Item}

theorem pure {result : α}
    (h : ∀ first last, Spelled input.tokens first last held →
      Spelled input.tokens first last (items result)) :
    Spells input now held (Pure.pure result) items := by
  intro _ before result' after first _ hrun hheld
  cases hrun
  exact h _ _ hheld

theorem same {result : α} (h : held = items result) :
    Spells input now held (Pure.pure result) items :=
  pure fun _ _ => h ▸ id

theorem node {result : α} {form : α → Node} {leads : List Item}
    (hled : (form result).LedBy leads)
    (hcomposed : (form result).Composed ((form result).children.map .node))
    (hinit : (form result).Initialized)
    (hheld : held = leads ++ (form result).children.map .node) :
    Spells input now held (Pure.pure result) (asNode form) :=
  pure fun _ _ h => .whole (hheld ▸ h) hled hcomposed hinit

theorem single {result : α} {form : α → Node}
    (h : Spells input now held (Pure.pure result) (asNode form)) :
    Spells input now held (Pure.pure [result]) (asNodes form) := by
  intro hclosed before result' after first hnow hrun hheld
  cases hrun
  exact h hclosed _ _ _ _ hnow rfl hheld

theorem fail {cause : Cause} {offset : Nat} :
    Spells input now held (failAt cause offset) items := by
  intro _ before result after first _ hrun
  cases hrun

theorem failHere {expectation : String} :
    Spells input now held (Reader.failHere expectation) items := by
  intro _ before result after first _ hrun
  cases hrun

theorem exhausted : Spells input now held Reader.exhausted items := by
  intro _ before result after first _ hrun
  cases hrun

theorem breakOff : Spells input now held Reader.breakOff items := by
  intro _ before result after first _ hrun
  cases hrun

theorem given_now {other : Token → Prop} (hnow : ∀ token, now token → other token)
    (h : Spells input other held reader items) : Spells input now held reader items :=
  fun hclosed before result after first htoken =>
    h hclosed before result after first (hnow _ htoken)

theorem anywhere (h : Spells input anything held reader items) :
    Spells input now held reader items :=
  given_now (fun _ _ => trivial) h

theorem forget (h : Spells input now [] reader items) : Spells input now held reader items :=
  fun hclosed before result after first hnow hrun hheld =>
    h hclosed before result after first hnow hrun (.nil hheld.le)

theorem skip {first : Reader β} [Forward first] {next : β → Reader α}
    (h : ∀ result, Spells input anything held (next result) items) :
    Spells input now held (first >>= next) items := by
  intro hclosed before result after start _ hrun hheld
  obtain ⟨part, middle, hfirst, hnext⟩ := bind_ok hrun
  exact h part hclosed _ _ _ _ trivial hnext
    (hheld.mono (Nat.le_refl _) (Forward.place_le hfirst))

theorem at_input (h : Spells input now held (fun _ => reader input) items) :
    Spells input now held reader items :=
  h

theorem to_input (h : Spells input now held reader items) :
    Spells input now held (fun _ => reader input) items :=
  h

theorem of_closed (h : input.Closed → Spells input now held reader items) :
    Spells input now held reader items :=
  fun hclosed => h hclosed hclosed

theorem span {start : Nat} {next : Span → Reader α}
    (h : ∀ stop, Spells input anything held (next ⟨start, stop⟩) items) :
    Spells input now held (spanFrom start >>= next) items := by
  unfold spanFrom
  rw [bind_assoc]
  exact skip h

theorem see {first : Reader β} {view : Token → β} [Sees first view] {next : β → Reader α}
    (h : ∀ token, now token → Spells input (· = token) held (next (view token)) items) :
    Spells input now held (first >>= next) items := by
  intro hclosed before result after start hnow hrun hheld
  obtain ⟨part, middle, hfirst, hnext⟩ := bind_ok hrun
  obtain ⟨rfl, rfl⟩ := Sees.run hfirst
  exact h _ hnow hclosed _ _ _ _ rfl hnext hheld

theorem see_input {first : Reader β} {view : Token → β} [Sees first view] {next : β → Reader α}
    (h : ∀ token, now token → Spells input (· = token) held (next (view token)) items) :
    Spells input now held (fun input => first input >>= fun result => next result input) items :=
  see h

theorem peek_input {ahead : Nat} {next : Token → Reader α}
    (h : ∀ token, Spells input now held (next token) items) :
    Spells input now held (fun input => peek ahead input >>= fun token => next token input)
      items := by
  intro hclosed before result after start hnow hrun hheld
  exact h _ hclosed before result after start hnow hrun hheld

theorem look {first : Reader β} {view : Token → β} [Sees first view] {next : β → Reader α}
    (h : ∀ token, now token →
      Spells input (· = token) (held ++ [.ahead token]) (next (view token)) items) :
    Spells input now held (first >>= next) items := by
  intro hclosed before result after start hnow hrun hheld
  obtain ⟨part, middle, hfirst, hnext⟩ := bind_ok hrun
  obtain ⟨rfl, rfl⟩ := Sees.run hfirst
  refine h _ hnow hclosed _ _ _ _ rfl hnext (hheld.append ?_)
  exact .ahead (Nat.le_refl _) (.nil (Nat.le_refl _))

theorem take {next : Token → Reader α}
    (h : ∀ token, now token →
      Spells input anything (held ++ [.token token]) (next token) items) :
    Spells input now held (advance >>= next) items := by
  intro hclosed before result after start hnow hrun hheld
  obtain ⟨part, middle, hfirst, hnext⟩ := bind_ok hrun
  have hle := Forward.place_le hfirst
  cases hfirst
  refine h _ hnow hclosed _ _ _ _ trivial hnext (hheld.append ?_)
  refine .token (Nat.le_refl _) hle (fun hkind => ?_) (.nil (Nat.le_refl _))
  simp [hclosed.lt_size hkind]

theorem frame {first : Reader β} {firstItems : β → List Item} {next : β → Reader α}
    {taken : List Item} (hfirst : Spells input now taken first firstItems)
    (h : ∀ result, Spells input anything (held ++ firstItems result) (next result) items) :
    Spells input now (held ++ taken) (first >>= next) items := by
  intro hclosed before result after start hnow hrun hheld
  obtain ⟨part, middle, hrunFirst, hrunNext⟩ := bind_ok hrun
  obtain ⟨place, hkept, htaken⟩ := hheld.split
  exact h part hclosed _ _ _ _ trivial hrunNext
    (hkept.append (hfirst hclosed _ _ _ _ hnow hrunFirst htaken))

theorem seq {first : Reader β} {firstItems : β → List Item} {next : β → Reader α}
    (hfirst : Spells input now held first firstItems)
    (h : ∀ result, Spells input anything (firstItems result) (next result) items) :
    Spells input now held (first >>= next) items := by
  rw [← List.nil_append held]
  exact frame hfirst h

theorem read {first : Reader β} {firstItems : β → List Item} {next : β → Reader α}
    (hfirst : Spells input now [] first firstItems)
    (h : ∀ result, Spells input anything (held ++ firstItems result) (next result) items) :
    Spells input now held (first >>= next) items := by
  rw [← List.append_nil held]
  exact frame hfirst h

theorem given {value : β} {next : β → Reader α} (h : Spells input now held (next value) items) :
    Spells input now held (Pure.pure value >>= next) items :=
  h

theorem ite {condition : Prop} [Decidable condition] {yes no : Reader α}
    (hyes : condition → Spells input now held yes items)
    (hno : ¬condition → Spells input now held no items) :
    Spells input now held (if condition then yes else no) items := by
  split
  · exact hyes ‹_›
  · exact hno ‹_›

theorem expect {kind : TokenKind} {expectation : String} {next : Token → Reader α}
    (h : ∀ token, token.kind = kind →
      Spells input anything (held ++ [.token token]) (next token) items) :
    Spells input now held (expectOr kind (Reader.failHere expectation) >>= next) items := by
  have heq : expectOr kind (Reader.failHere expectation) >>= next =
      atKind kind >>= fun present =>
        if present then advance >>= next else Reader.failHere expectation >>= next := by
    unfold expectOr
    rw [bind_assoc]
    congr 1
    funext present
    split <;> rfl
  rw [heq]
  refine see fun token _ => ite (fun hkind => take ?_) (fun _ => ?_)
  · rintro passed rfl
    exact h passed (beq_iff_eq.mp hkind)
  · intro _ before result after first _ hrun
    obtain ⟨_, _, hfailed, _⟩ := bind_ok hrun
    cases hfailed

variable {form : α → Node} {item : Reader α} {others : Reader (List α)} {finished : Reader Bool}

theorem optional {present : Bool}
    (h : present = true → Spells input now [] item (asNode form)) :
    Spells input now [] (Reader.optional present item)
      (fun result? => asNodes form result?.toList) := by
  unfold Reader.optional
  refine ite (fun hpresent => ?_) (fun _ => ?_)
  · exact read (h hpresent) fun result => same rfl
  · exact same rfl

theorem collectUntil [Forward finished] (h : Spells input anything [] others (asNodes form)) :
    Spells input now [] (Reader.collectUntil finished others) (asNodes form) := by
  have hbounded (limit : Nat) :
      Spells input anything [] (collectAtMost finished others limit) (asNodes form) := by
    induction limit with
    | zero => exact exhausted
    | succ limit ih =>
        refine skip fun ends => ite (fun _ => same rfl) (fun _ => ?_)
        exact read h fun first => read ih fun rest => same (by simp)
  exact skip hbounded

theorem separated (h : Spells input anything [] item (asNode form)) :
    Spells input now [] (Reader.separated item) (asNodes form) := by
  have hbounded (limit : Nat) :
      Spells input anything [] (separatedAtMost item limit) (asNodes form) := by
    induction limit with
    | zero => exact exhausted
    | succ limit ih =>
        refine read h fun first => skip fun more => ite (fun _ => ?_) (fun _ => ?_)
        · exact read ih fun rest => same rfl
        · exact same rfl
  exact skip hbounded

/-- The items in the state of a repetition or in its result. -/
def againItems (stateItems : σ → List Item) (items : α → List Item) : Again σ α → List Item
  | .again state => stateItems state
  | .done result => items result

theorem iterate {step : σ → Reader (Again σ α)} {stateItems : σ → List Item}
    (h : ∀ state, Spells input anything (stateItems state) (step state)
      (againItems stateItems items)) (state : σ) :
    Spells input now (stateItems state) (Reader.iterate step state) items := by
  have hbounded (limit : Nat) (state : σ) :
      Spells input anything (stateItems state) (repeatAtMost step limit state) items := by
    induction limit generalizing state with
    | zero => exact exhausted
    | succ limit ih =>
        refine seq (h state) fun outcome => ?_
        cases outcome with
        | again next => exact ih next
        | done final => exact pure fun _ _ => id
  exact skip fun limit => hbounded limit state

end Spells

end Reader

end ScriptKinds
