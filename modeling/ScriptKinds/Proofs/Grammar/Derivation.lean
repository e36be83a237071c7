import ScriptKinds.Proofs.Grammar.Advancing
import ScriptKinds.Proofs.Grammar.Production

/-!
Derivations of trees from tokens.

The constituents of a derivation cover a stretch of tokens without a gap.  A
derivation can keep facts about each node and the places between which it is
written.  These are added afterwards, as they follow from the productions.

A reader is given what has been derived behind it and hands on a result from
which a larger derivation can be made.  The rules for readers follow the ways in
which they are put together.
-/

namespace ScriptKinds

namespace TokenStream

/-- The place behind the token at a place.  Nothing is behind the last token. -/
def after (tokens : TokenStream) (place : Nat) : Nat :=
  if place < tokens.body.size then place + 1 else place

theorem le_after (tokens : TokenStream) (place : Nat) : place ≤ tokens.after place := by
  unfold after
  split <;> omega

theorem after_eq {tokens : TokenStream} (hends : tokens.last.kind = .endOfInput) {place : Nat}
    (hkind : (tokens.get place).kind ≠ .endOfInput) : tokens.after place = place + 1 :=
  if_pos (lt_size hends hkind)

theorem after_eq_of_next {tokens : TokenStream} (hends : tokens.last.kind = .endOfInput)
    {place : Nat} (hkind : (tokens.get (tokens.after place)).kind ≠ .endOfInput) :
    tokens.after place = place + 1 := by
  rw [after] at hkind ⊢
  split at hkind
  · exact if_pos ‹_›
  · exact absurd (lt_size hends hkind) ‹_›

end TokenStream

namespace Grammar

/-- Derived tokens keeps first last parts: the tokens from the place `first` up
to the place `last` are what the parts are written as, one behind the other.
What is kept of a node holds of it and the places where it begins and ends. -/
inductive Derived (tokens : TokenStream) (keeps : Nat → Nat → Node → Prop) :
    Nat → Nat → List Constituent → Prop
  | nil {place : Nat} : Derived tokens keeps place place []
  | token {place last : Nat} {others : List Constituent}
      (hothers : Derived tokens keeps (tokens.after place) last others) :
      Derived tokens keeps place last (.token (tokens.get place) :: others)
  | ahead {place last : Nat} {others : List Constituent}
      (hothers : Derived tokens keeps place last others) :
      Derived tokens keeps place last (.ahead (tokens.get place) :: others)
  | node {first middle last : Nat} {node : Node} {parts others : List Constituent}
      (hproduction : Production node parts) (hkeeps : keeps first middle node)
      (hparts : Derived tokens keeps first middle parts)
      (hothers : Derived tokens keeps middle last others) :
      Derived tokens keeps first last (.node node :: others)
  | bare {first middle last : Nat} {node : Node} {parts others : List Constituent}
      (hproduction : BareProduction node parts) (hparts : Derived tokens keeps first middle parts)
      (hothers : Derived tokens keeps middle last others) :
      Derived tokens keeps first last (.bare node :: others)

/-- A derivation that keeps nothing. -/
abbrev Derivation (tokens : TokenStream) : Nat → Nat → List Constituent → Prop :=
  Derived tokens fun _ _ _ => True

namespace Derived

variable {tokens : TokenStream} {keeps : Nat → Nat → Node → Prop} {first middle last : Nat}
  {node : Node} {parts others : List Constituent}

theorem append (h : Derived tokens keeps first middle parts)
    (h' : Derived tokens keeps middle last others) :
    Derived tokens keeps first last (parts ++ others) := by
  induction h with
  | nil => exact h'
  | token _ ih => exact .token (ih h')
  | ahead _ ih => exact .ahead (ih h')
  | node hproduction hkeeps hparts _ _ ih => exact .node hproduction hkeeps hparts (ih h')
  | bare hproduction hparts _ _ ih => exact .bare hproduction hparts (ih h')

theorem split (h : Derived tokens keeps first last (parts ++ others)) :
    ∃ middle, Derived tokens keeps first middle parts ∧
      Derived tokens keeps middle last others := by
  induction parts generalizing first with
  | nil => exact ⟨first, .nil, h⟩
  | cons part parts ih =>
      cases h with
      | token hrest =>
          obtain ⟨middle, hparts, hothers⟩ := ih hrest
          exact ⟨middle, .token hparts, hothers⟩
      | ahead hrest =>
          obtain ⟨middle, hparts, hothers⟩ := ih hrest
          exact ⟨middle, .ahead hparts, hothers⟩
      | node hproduction hkeeps hkids hrest =>
          obtain ⟨middle, hparts, hothers⟩ := ih hrest
          exact ⟨middle, .node hproduction hkeeps hkids hparts, hothers⟩
      | bare hproduction hkids hrest =>
          obtain ⟨middle, hparts, hothers⟩ := ih hrest
          exact ⟨middle, .bare hproduction hkids hparts, hothers⟩

theorem uncons {part : Constituent} (h : Derived tokens keeps first last (part :: others)) :
    ∃ middle, Derived tokens keeps first middle [part] ∧ Derived tokens keeps middle last others :=
  have hsplit : Derived tokens keeps first last ([part] ++ others) := h
  hsplit.split

theorem le (h : Derived tokens keeps first last parts) : first ≤ last := by
  induction h with
  | nil => exact Nat.le_refl _
  | token _ ih => exact Nat.le_trans (tokens.le_after _) ih
  | ahead _ ih => exact ih
  | node _ _ _ _ ihparts ih | bare _ _ _ ihparts ih => exact Nat.le_trans ihparts ih

/-- What follows from the production of a node, and from what is kept of the
nodes in it, can be kept of the node. -/
theorem keep {other : Nat → Nat → Node → Prop}
    (hother : ∀ {first last node parts}, Production node parts →
      Derived tokens other first last parts → other first last node)
    (h : Derived tokens keeps first last parts) : Derived tokens other first last parts := by
  induction h with
  | nil => exact .nil
  | token _ ih => exact .token ih
  | ahead _ ih => exact .ahead ih
  | node hproduction _ _ _ ihparts ih =>
      exact .node hproduction (hother hproduction ihparts) ihparts ih
  | bare hproduction _ _ ihparts ih => exact .bare hproduction ihparts ih

theorem whole (h : Derivation tokens first last parts) (hproduction : Production node parts) :
    Derivation tokens first last [.node node] :=
  .node hproduction trivial h .nil

theorem whole_bare (h : Derivation tokens first last parts)
    (hproduction : BareProduction node parts) : Derivation tokens first last [.bare node] :=
  .bare hproduction h .nil

end Derived

section Lists

variable {mark : Token → Prop} {nodes more : List Node} {parts others : List Constituent}

theorem Listed.append (h : Listed mark nodes parts) (h' : Listed mark more others) :
    Listed mark (nodes ++ more) (parts ++ others) := by
  induction h with
  | nil => exact h'
  | node _ ih => exact .node ih
  | mark hmark _ ih => exact .mark hmark ih

theorem Listed.imp {other : Token → Prop} (hother : ∀ token, mark token → other token)
    (h : Listed mark nodes parts) : Listed other nodes parts := by
  induction h with
  | nil => exact .nil
  | node _ ih => exact .node ih
  | mark hmark _ ih => exact .mark (hother _ hmark) ih

theorem Scattered.append {elements moreElements : List PatternElement}
    {defaults moreDefaults : List Expr} (h : Scattered elements defaults parts)
    (h' : Scattered moreElements moreDefaults others) :
    Scattered (elements ++ moreElements) (defaults ++ moreDefaults) (parts ++ others) := by
  induction h with
  | nil => exact h'
  | token _ ih => exact .token ih
  | element _ ih => exact .element ih
  | nested _ ih => exact .nested ih

theorem Listed.scattered (h : Listed mark [] parts) : Scattered [] [] parts := by
  generalize hnodes : ([] : List Node) = nodes at h
  induction h with
  | nil => exact .nil
  | node => cases hnodes
  | mark _ _ ih => exact .token (ih hnodes)

end Lists

end Grammar

namespace Reader

open Grammar

variable {α β σ : Type}

/-- A reader that starts at a token with a property and makes what has been
derived into something that is good for its result. -/
def Derives (input : Input) (now : Token → Prop) (held : List Constituent) (reader : Reader α)
    (good : α → List Constituent → Prop) : Prop :=
  input.grammar = .script → ∀ before result after first, now (input.tokens.get before.place) →
    reader input before = .ok result after → Derivation input.tokens first before.place held →
      ∃ parts, good result parts ∧ Derivation input.tokens first after.place parts

/-- A result as one node. -/
abbrev oneNode (form : α → Node) (result : α) (parts : List Constituent) : Prop :=
  parts = [.node (form result)]

/-- A list of results as nodes with marks between them. -/
abbrev listOf (mark : Token → Prop) (form : α → Node) (results : List α)
    (parts : List Constituent) : Prop :=
  Listed mark (results.map form) parts

/-- A list of results as nodes with nothing between them. -/
abbrev runOf (form : α → Node) (results : List α) (parts : List Constituent) : Prop :=
  parts = results.map fun result => .node (form result)

namespace Derives

variable {input : Input} {now : Token → Prop} {held : List Constituent} {reader : Reader α}
  {good : α → List Constituent → Prop}

section Results

theorem pure {result : α} (h : good result held) :
    Derives input now held (Pure.pure result) good := by
  intro _ before result' after first _ hrun hheld
  cases hrun
  exact ⟨held, h, hheld⟩

theorem node {result : α} {form : α → Node} (h : Production (form result) held) :
    Derives input now held (Pure.pure result) (oneNode form) := by
  intro _ before result' after first _ hrun hheld
  cases hrun
  exact ⟨_, rfl, hheld.whole h⟩

theorem node_of {result : α} {form : α → Node} {parts : List Constituent}
    (h : Production (form result) parts) (hheld : held = parts) :
    Derives input now held (Pure.pure result) (oneNode form) :=
  node (hheld ▸ h)

theorem wrap {node : Node} (hproduction : Production node held)
    (h : Derives input now [.node node] reader good) : Derives input now held reader good :=
  fun hscript _ _ _ _ hnow hrun hheld => h hscript _ _ _ _ hnow hrun (hheld.whole hproduction)

theorem wrap_last {front parts : List Constituent} {node : Node}
    (hproduction : Production node parts)
    (h : Derives input now (front ++ [Constituent.node node]) reader good) :
    Derives input now (front ++ parts) reader good := by
  intro hscript before result after first hnow hrun hheld
  obtain ⟨middle, hfront, hparts⟩ := hheld.split
  exact h hscript _ _ _ _ hnow hrun (hfront.append (hparts.whole hproduction))

theorem wrap_bare {node : Node} (hproduction : BareProduction node held)
    (h : Derives input now [.bare node] reader good) : Derives input now held reader good :=
  fun hscript _ _ _ _ hnow hrun hheld =>
    h hscript _ _ _ _ hnow hrun (hheld.whole_bare hproduction)

theorem single {result : α} {form : α → Node} {mark : Token → Prop}
    (h : Production (form result) held) :
    Derives input now held (Pure.pure [result]) (listOf mark form) :=
  wrap h (pure (.node .nil))

theorem fail {cause : Cause} {offset : Nat} :
    Derives input now held (failAt cause offset) good := by
  intro _ before result after first _ hrun
  cases hrun

theorem failHere {expectation : String} :
    Derives input now held (Reader.failHere expectation) good := by
  intro _ before result after first _ hrun
  cases hrun

theorem exhausted : Derives input now held Reader.exhausted good := by
  intro _ before result after first _ hrun
  cases hrun

theorem breakOff : Derives input now held Reader.breakOff good := by
  intro _ before result after first _ hrun
  cases hrun

end Results

section Places

theorem given_now {other : Token → Prop} (hnow : ∀ token, now token → other token)
    (h : Derives input other held reader good) : Derives input now held reader good :=
  fun hscript before result after first htoken =>
    h hscript before result after first (hnow _ htoken)

theorem anywhere (h : Derives input anything held reader good) :
    Derives input now held reader good :=
  given_now (fun _ _ => trivial) h

theorem of_seen {token : Token} {other : Token → Prop} (htoken : other token)
    (h : Derives input other held reader good) : Derives input (· = token) held reader good :=
  given_now (fun _ hsame => hsame ▸ htoken) h

theorem at_input (h : Derives input now held (fun _ => reader input) good) :
    Derives input now held reader good :=
  h

theorem to_input (h : Derives input now held reader good) :
    Derives input now held (fun _ => reader input) good :=
  h

theorem of_script (h : input.grammar = .script → Derives input now held reader good) :
    Derives input now held reader good :=
  fun hscript => h hscript hscript

theorem ahead {token : Token}
    (h : Derives input (· = token) (held ++ [Constituent.ahead token]) reader good) :
    Derives input (· = token) held reader good := by
  intro hscript before result after first hnow hrun hheld
  refine h hscript _ _ _ _ hnow hrun (hheld.append ?_)
  cases hnow
  exact .ahead .nil

end Places

section Turns

variable {first : Reader β} {next : β → Reader α}

theorem skip [still : Still first] (h : ∀ result, Derives input now held (next result) good) :
    Derives input now held (first >>= next) good := by
  intro hscript before result after start hnow hrun hheld
  obtain ⟨part, middle, hfirst, hnext⟩ := bind_ok hrun
  obtain ⟨_, _, hfirst', hplace⟩ := still.eq_ok input before
  cases hfirst.symm.trans hfirst'
  rw [← hplace] at hnow hheld
  exact h part hscript _ _ _ _ hnow hnext hheld

theorem see {view : Token → β} [Sees first view]
    (h : ∀ token, now token → Derives input (· = token) held (next (view token)) good) :
    Derives input now held (first >>= next) good := by
  intro hscript before result after start hnow hrun hheld
  obtain ⟨part, middle, hfirst, hnext⟩ := bind_ok hrun
  obtain ⟨rfl, rfl⟩ := Sees.run hfirst
  exact h _ hnow hscript _ _ _ _ rfl hnext hheld

theorem see_input {view : Token → β} [Sees first view]
    (h : ∀ token, now token → Derives input (· = token) held (next (view token)) good) :
    Derives input now held (fun input => first input >>= fun result => next result input) good :=
  see h

theorem peek_input {ahead : Nat} {next : Token → Reader α}
    (h : ∀ token, Derives input now held (next token) good) :
    Derives input now held (fun input => peek ahead input >>= fun token => next token input)
      good := by
  intro hscript before result after start hnow hrun hheld
  exact h _ hscript before result after start hnow hrun hheld

theorem take {next : Token → Reader α}
    (h : ∀ token, now token →
      Derives input anything (held ++ [Constituent.token token]) (next token) good) :
    Derives input now held (advance >>= next) good := by
  intro hscript before result after start hnow hrun hheld
  obtain ⟨part, middle, hfirst, hnext⟩ := bind_ok hrun
  cases hfirst
  exact h _ hnow hscript _ _ _ _ trivial hnext (hheld.append (.token .nil))

theorem take_seen {next : Token → Reader α} {token : Token}
    (h : Derives input anything (held ++ [Constituent.token token]) (next token) good) :
    Derives input (· = token) held (advance >>= next) good :=
  take fun _ hsame => hsame ▸ h

theorem read {firstGood : β → List Constituent → Prop}
    (hfirst : Derives input now [] first firstGood)
    (h : ∀ result parts, firstGood result parts →
      Derives input anything (held ++ parts) (next result) good) :
    Derives input now held (first >>= next) good := by
  intro hscript before result after start hnow hrun hheld
  obtain ⟨part, middle, hrunFirst, hrunNext⟩ := bind_ok hrun
  obtain ⟨parts, hparts, hderived⟩ := hfirst hscript _ _ _ _ hnow hrunFirst .nil
  exact h part parts hparts hscript _ _ _ _ trivial hrunNext (hheld.append hderived)

theorem rest {reader : Reader α} {other : α → List Constituent → Prop}
    (h : Derives input now [] reader other)
    (hgood : ∀ result parts, other result parts → good result (held ++ parts)) :
    Derives input now held reader good := by
  intro hscript before result after start hnow hrun hheld
  obtain ⟨parts, hparts, hderived⟩ := h hscript _ _ _ _ hnow hrun .nil
  exact ⟨_, hgood _ _ hparts, hheld.append hderived⟩

theorem node_then {form : β → Node} (hfirst : Derives input now [] first (oneNode form))
    (h : ∀ result,
      Derives input anything (held ++ [Constituent.node (form result)]) (next result) good) :
    Derives input now held (first >>= next) good :=
  read hfirst fun result _ hparts => hparts ▸ h result

theorem seq {firstGood : β → List Constituent → Prop}
    (hfirst : Derives input now held first firstGood)
    (h : ∀ result parts, firstGood result parts →
      Derives input anything parts (next result) good) :
    Derives input now held (first >>= next) good := by
  intro hscript before result after start hnow hrun hheld
  obtain ⟨part, middle, hrunFirst, hrunNext⟩ := bind_ok hrun
  obtain ⟨parts, hparts, hderived⟩ := hfirst hscript _ _ _ _ hnow hrunFirst hheld
  exact h part parts hparts hscript _ _ _ _ trivial hrunNext hderived

theorem given {value : β} (h : Derives input now held (next value) good) :
    Derives input now held (Pure.pure value >>= next) good :=
  h

theorem fail_bind {cause : Cause} {offset : Nat} :
    Derives input now held (failAt cause offset >>= next) good := by
  intro _ before result after first _ hrun
  cases hrun

theorem failHere_bind {expectation : String} :
    Derives input now held (Reader.failHere expectation >>= next) good := by
  intro _ before result after first _ hrun
  cases hrun

theorem ite {condition : Prop} [Decidable condition] {yes no : Reader α}
    (hyes : condition → Derives input now held yes good)
    (hno : ¬condition → Derives input now held no good) :
    Derives input now held (if condition then yes else no) good := by
  split
  · exact hyes ‹_›
  · exact hno ‹_›

end Turns

section Tokens

theorem expect {kind : TokenKind} {expectation : String} {next : Token → Reader α}
    (h : ∀ token, token.kind = kind →
      Derives input anything (held ++ [Constituent.token token]) (next token) good) :
    Derives input now held (expectOr kind (Reader.failHere expectation) >>= next) good := by
  have heq : expectOr kind (Reader.failHere expectation) >>= next =
      atKind kind >>= fun present =>
        if present then advance >>= next else Reader.failHere expectation >>= next := by
    unfold expectOr
    rw [bind_assoc]
    congr 1
    funext present
    split <;> rfl
  rw [heq]
  refine see fun token _ => ite (fun hkind => take_seen ?_) fun _ => failHere_bind
  exact h token (beq_iff_eq.mp hkind)

theorem expectWord {word : String} {next : Token → Reader α}
    (h : ∀ token, token.isWord word = true →
      Derives input anything (held ++ [Constituent.token token]) (next token) good) :
    Derives input now held (Reader.expectWord word >>= next) good := by
  have heq : Reader.expectWord word >>= next = atWord word >>= fun present =>
      if present then advance >>= next
      else Reader.failHere ("expected `" ++ word ++ "`") >>= next := by
    unfold Reader.expectWord
    rw [bind_assoc]
    congr 1
    funext present
    split <;> rfl
  rw [heq]
  exact see fun token _ => ite (fun hword => take_seen (h token hword)) fun _ => failHere_bind

theorem skipIf {kind : TokenKind} {next : Bool → Reader α}
    (h : ∀ present parts, Marked (OfKind kind) present parts →
      Derives input anything (held ++ parts) (next present) good) :
    Derives input now held (Reader.skipIf kind >>= next) good := by
  have heq : Reader.skipIf kind >>= next = atKind kind >>= fun present =>
      if present then advance >>= fun _ => next true else next false := by
    unfold Reader.skipIf
    rw [bind_assoc]
    congr 1
    funext present
    split
    · rw [bind_assoc]
      rfl
    · rfl
  rw [heq]
  refine see fun token _ => ite (fun hkind => take_seen ?_) (fun _ => ?_)
  · exact h true _ (.present (beq_iff_eq.mp hkind))
  · rw [← List.append_nil held]
    exact (h false [] .absent).anywhere

theorem skipIf_else {kind : TokenKind} {yes no : Reader α}
    (hyes : ∀ token, token.kind = kind →
      Derives input anything (held ++ [Constituent.token token]) yes good)
    (hno : Derives input anything held no good) :
    Derives input now held (Reader.skipIf kind >>= fun passed => if passed then yes else no)
      good := by
  refine skipIf fun present parts hparts => ?_
  cases hparts with
  | absent => exact (List.append_nil held).symm ▸ hno
  | present hkind => exact hyes _ hkind

theorem separator {close : TokenKind} {next : Unit → Reader α}
    (h : ∀ parts, Listed (OfKind .comma) [] parts →
      Derives input anything (held ++ parts) (next ()) good) :
    Derives input now held (Reader.separator close >>= next) good := by
  have heq : Reader.separator close >>= next = atKind close >>= fun closed =>
      if closed then next () else Reader.expect .comma >>= fun _ => next () := by
    unfold Reader.separator
    rw [bind_assoc]
    congr 1
    funext closed
    split
    · rfl
    · rw [bind_assoc]
      rfl
  rw [heq]
  refine see fun token _ => ite (fun _ => ?_) (fun _ => expect fun comma hcomma => ?_)
  · rw [← List.append_nil held]
    exact (h [] .nil).anywhere
  · exact h _ (.mark hcomma .nil)

theorem terminator {next : Unit → Reader α}
    (h : ∀ ending, Terminator ending →
      Derives input anything (held ++ ending) (next ()) good) :
    Derives input now held (expectSemicolon >>= next) good := by
  have heq : expectSemicolon >>= next = current >>= fun token =>
      if token.kind == .semicolon then advance >>= fun _ => next ()
      else if token.kind == .closeCurly || token.kind == .endOfInput || token.newlineBefore then
        next ()
      else failExpecting "expected `;` or a line break" token >>= next := by
    unfold expectSemicolon
    rw [bind_assoc]
    congr 1
    funext token
    split
    · rw [bind_assoc]
      rfl
    · split <;> rfl
  rw [heq]
  refine see fun token _ => ite (fun hkind => take_seen ?_) (fun _ => ite (fun hplace => ?_) ?_)
  · exact h _ (.semicolon (beq_iff_eq.mp hkind))
  · refine ahead (anywhere (h _ (.omitted ?_)))
    simpa [or_assoc] using hplace
  · exact fun _ => fail_bind

end Tokens

section Repetition

variable {form : α → Node} {item : Reader α} {others : Reader (List α)} {finished : Reader Bool}

theorem optional {present : Bool} (h : present = true → Derives input now [] item (oneNode form)) :
    Derives input now [] (Reader.optional present item)
      (fun result? parts => parts = result?.toList.map fun result => .node (form result)) := by
  unfold Reader.optional
  exact ite (fun hpresent => node_then (h hpresent) fun _ => pure rfl) fun _ => pure rfl

theorem behind {kind : TokenKind} {next : Option α → Reader β}
    {itemGood : α → List Constituent → Prop} {good : β → List Constituent → Prop}
    (hitem : Derives input anything [] item itemGood)
    (habsent : Derives input anything held (next none) good)
    (hpresent : ∀ token result parts, token.kind = kind → itemGood result parts →
      Derives input anything (held ++ Constituent.token token :: parts) (next (some result)) good) :
    Derives input now held
      (Reader.skipIf kind >>= fun present => Reader.optional present item >>= next) good := by
  refine skipIf fun present mark hmark => ?_
  cases hmark with
  | absent =>
      rw [List.append_nil]
      exact given habsent
  | @present token hkind =>
      unfold Reader.optional
      rw [if_pos rfl, bind_assoc]
      refine read hitem fun result parts hparts => given ?_
      simpa using hpresent token result parts hkind hparts

theorem introduced {kind : TokenKind} {next : Option α → Reader β}
    {good : β → List Constituent → Prop} (hitem : Derives input anything [] item (oneNode form))
    (h : ∀ result? parts, Introduced kind form result? parts →
      Derives input anything (held ++ parts) (next result?) good) :
    Derives input now held
      (Reader.skipIf kind >>= fun present => Reader.optional present item >>= next) good := by
  refine behind hitem (List.append_nil held ▸ h none [] .absent) ?_
  rintro token result _ hkind rfl
  exact h (some result) _ (.present hkind)

theorem collectUntil [Still finished] {good : List α → List Constituent → Prop}
    (hnil : good [] []) (happend : ∀ {results more parts others}, good results parts →
      good more others → good (results ++ more) (parts ++ others))
    (h : Derives input anything [] others good) :
    Derives input now [] (Reader.collectUntil finished others) good := by
  have hbounded (limit : Nat) :
      Derives input anything [] (collectAtMost finished others limit) good := by
    induction limit with
    | zero => exact exhausted
    | succ limit ih =>
        refine skip fun ends => ite (fun _ => pure hnil) (fun _ => ?_)
        refine read h fun results parts hparts => read ih fun more others hmore => ?_
        exact pure (happend hparts hmore)
  exact skip fun limit => (hbounded limit).anywhere

theorem list [Still finished] {mark : Token → Prop}
    (h : Derives input anything [] others (listOf mark form)) :
    Derives input now [] (Reader.collectUntil finished others) (listOf mark form) := by
  refine collectUntil .nil (fun hresults hmore => ?_) h
  rw [listOf, List.map_append]
  exact hresults.append hmore

theorem run [Still finished] (h : Derives input anything [] others (runOf form)) :
    Derives input now [] (Reader.collectUntil finished others) (runOf form) := by
  refine collectUntil rfl ?_ h
  rintro results more _ _ rfl rfl
  exact List.map_append.symm

theorem turn (h : Derives input now [] item (oneNode form)) :
    Derives input now [] (return [← item]) (runOf form) :=
  node_then h fun _ => pure rfl

theorem separated (h : Derives input anything [] item (oneNode form)) :
    Derives input now [] (Reader.separated item)
      (fun results parts => Separated (results.map form) parts) := by
  have hbounded (limit : Nat) : Derives input anything [] (separatedAtMost item limit)
      (fun results parts => Separated (results.map form) parts) := by
    induction limit with
    | zero => exact exhausted
    | succ limit ih =>
        refine node_then h fun first => skipIf_else (fun comma hcomma => ?_) ?_
        · exact read ih fun others parts hparts => pure (.comma hcomma hparts)
        · exact pure (.single _)
  exact skip fun limit => (hbounded limit).anywhere

/-- What is held in the state of a repetition or goes with its result. -/
def againGood (stateGood : σ → List Constituent → Prop) (good : α → List Constituent → Prop) :
    Again σ α → List Constituent → Prop
  | .again state => stateGood state
  | .done result => good result

theorem iterate {step : σ → Reader (Again σ α)} {stateGood : σ → List Constituent → Prop}
    (h : ∀ state held, stateGood state held →
      Derives input anything held (step state) (againGood stateGood good))
    {state : σ} (hstate : stateGood state held) :
    Derives input now held (Reader.iterate step state) good := by
  -- The state and what is held for it change with each turn.
  have hbounded (limit : Nat) (state : σ) (held : List Constituent)
      (hstate : stateGood state held) :
      Derives input anything held (repeatAtMost step limit state) good := by
    induction limit generalizing state held with
    | zero => exact exhausted
    | succ limit ih =>
        refine seq (h state held hstate) fun outcome parts hparts => ?_
        cases outcome with
        | again next => exact ih next parts hparts
        | done final => exact pure hparts
  exact skip fun limit => (hbounded limit state held hstate).anywhere

end Repetition

end Derives

end Reader

end ScriptKinds
