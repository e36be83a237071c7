import ScriptKinds.Proofs.Grammar.Advancing
import ScriptKinds.Proofs.Tree.Nesting

/-!
Readers of what lies between two places.

The tokens of a source cover parts of it, one behind the other.  So what a reader
makes of the tokens that it passes lies behind what the tokens before them cover,
and in front of what the tokens after them do.  And where a reader fails, the
fault lies in the source.  The rules below follow the ways in which readers are
put together.
-/

namespace ScriptKinds

namespace TokenStream

/-- Tokens that cover parts of a source, one behind the other, up to the token
that ends the text. -/
structure LaidOut (tokens : TokenStream) : Prop where
  solid : ∀ place < tokens.body.size, (tokens.get place).kind ≠ .endOfInput ∧
    (tokens.get place).span.start < (tokens.get place).span.stop
  apart : ∀ place later, place < later → later ≤ tokens.body.size →
    (tokens.get place).span.stop ≤ (tokens.get later).span.start

/-- Where the last token before a place stops. -/
def stopBefore (tokens : TokenStream) : Nat → Nat
  | 0 => 0
  | before + 1 => (tokens.get before).span.stop

/-- Where the token that ends the text stands. -/
def finish (tokens : TokenStream) : Nat :=
  tokens.last.span.start

namespace LaidOut

variable {tokens : TokenStream}

theorem get_size (tokens : TokenStream) : tokens.get tokens.body.size = tokens.last := by
  simp [get]

theorem stopBefore_le_start (h : tokens.LaidOut) {place : Nat} (hplace : place ≤ tokens.body.size) :
    tokens.stopBefore place ≤ (tokens.get place).span.start := by
  cases place with
  | zero => exact Nat.zero_le _
  | succ before => exact h.apart before (before + 1) (Nat.lt_succ_self _) hplace

theorem start_le_finish (h : tokens.LaidOut) {place : Nat} (hplace : place ≤ tokens.body.size) :
    (tokens.get place).span.start ≤ tokens.finish := by
  rw [finish, ← get_size]
  rcases Nat.lt_or_eq_of_le hplace with hlt | rfl
  · exact Nat.le_trans (Nat.le_of_lt (h.solid place hlt).2) (h.apart place _ hlt (Nat.le_refl _))
  · exact Nat.le_refl _

theorem stopBefore_le_finish (h : tokens.LaidOut) {place : Nat}
    (hplace : place ≤ tokens.body.size) : tokens.stopBefore place ≤ tokens.finish :=
  Nat.le_trans (h.stopBefore_le_start hplace) (h.start_le_finish hplace)

theorem stopBefore_mono (h : tokens.LaidOut) {place later : Nat} (hle : place ≤ later)
    (hlater : later ≤ tokens.body.size) : tokens.stopBefore place ≤ tokens.stopBefore later := by
  induction later with
  | zero =>
      obtain rfl := Nat.le_zero.mp hle
      exact Nat.le_refl _
  | succ later ih =>
      rcases Nat.lt_or_eq_of_le hle with hlt | rfl
      · have hbefore := ih (Nat.le_of_lt_succ hlt) (Nat.le_of_succ_le hlater)
        have hstart := h.stopBefore_le_start (Nat.le_of_succ_le hlater)
        have hsolid := (h.solid later hlater).2
        rw [stopBefore]
        omega
      · exact Nat.le_refl _

end LaidOut

end TokenStream

/-- A stream of tokens that cover parts of a source, in a grammar in which no
token that ends the text means anything else. -/
structure Input.LaidOut (input : Input) : Prop extends input.Terminated where
  laidOut : input.tokens.LaidOut

namespace Reader

variable {α β σ : Type}

/-- How a reader that starts at a place leaves a stream: with a result that is
good for every byte offset up to which it may reach, or with a fault in the
source. -/
inductive Landing (tokens : TokenStream) (place : Nat) (good : Nat → α → Prop) :
    EStateM.Result Failure Progress α → Prop
  | ok {result : α} {after : Progress} (hle : place ≤ after.place)
      (hlast : after.place ≤ tokens.body.size)
      (hgood : ∀ hi, tokens.stopBefore after.place ≤ hi → good hi result) :
      Landing tokens place good (.ok result after)
  | error {failure : Failure} {after : Progress}
      (hfault : ∀ fault, failure = .fault fault → fault.position.offset ≤ tokens.finish) :
      Landing tokens place good (.error failure after)

theorem Landing.imp {tokens : TokenStream} {place : Nat} {good other : Nat → α → Prop}
    {outcome : EStateM.Result Failure Progress α} (h : Landing tokens place other outcome)
    (hgood : ∀ hi result, other hi result → good hi result) :
    Landing tokens place good outcome := by
  cases h with
  | ok hle hlast hresult => exact .ok hle hlast fun hi hhi => hgood hi _ (hresult hi hhi)
  | error hfault => exact .error hfault

/-- At a token of some sort that does not begin before a byte offset, a reader
yields what is good up to where it has read. -/
def Ranges (input : Input) (now : Token → Prop) (floor : Nat) (reader : Reader α)
    (good : Nat → α → Prop) : Prop :=
  input.LaidOut → ∀ before : Progress, floor ≤ input.tokens.stopBefore before.place →
    before.place ≤ input.tokens.body.size → now (input.tokens.get before.place) →
      Landing input.tokens before.place good (reader input before)

/-- Nothing is asked of a result. -/
abbrev whatever (_ : Nat) (_ : α) : Prop :=
  True

namespace Ranges

variable {input : Input} {now : Token → Prop} {floor : Nat} {reader : Reader α}
  {good : Nat → α → Prop}

theorem pure {result : α} (h : ∀ hi, floor ≤ hi → good hi result) :
    Ranges input now floor (Pure.pure result) good :=
  fun _ _ hfloor hlast _ => .ok (Nat.le_refl _) hlast fun hi hhi => h hi (Nat.le_trans hfloor hhi)

theorem fail {cause : Cause} {offset : Nat} (h : offset ≤ floor) :
    Ranges input now floor (failAt cause offset) good := by
  intro hinput before hfloor hlast _
  refine .error fun fault heq => ?_
  cases heq
  have hfinish := hinput.laidOut.stopBefore_le_finish hlast
  dsimp only
  omega

theorem fail_now {cause : Cause} {offset : Nat} (h : ∀ token, now token → offset = token.span.start) :
    Ranges input now floor (failAt cause offset) good := by
  intro hinput before hfloor hlast hnow
  refine .error fun fault heq => ?_
  cases heq
  dsimp only
  rw [h _ hnow]
  exact hinput.laidOut.start_le_finish hlast

theorem failHere {expectation : String} :
    Ranges input now floor (Reader.failHere expectation) good := by
  intro hinput before hfloor hlast _
  refine .error fun fault heq => ?_
  cases heq
  exact hinput.laidOut.start_le_finish hlast

theorem exhausted : Ranges input now floor Reader.exhausted good :=
  fun _ _ _ _ _ => .error fun _ heq => nomatch heq

theorem breakOff : Ranges input now floor Reader.breakOff good :=
  fun _ _ _ _ _ => .error fun _ heq => nomatch heq

theorem mono {lower : Nat} {sort : Token → Prop} {other : Nat → α → Prop}
    (h : Ranges input sort lower reader other) (hfloor : lower ≤ floor)
    (hnow : ∀ token, now token → sort token)
    (hgood : ∀ hi result, other hi result → good hi result) :
    Ranges input now floor reader good := by
  intro hinput before hbefore hlast htoken
  exact (h hinput before (Nat.le_trans hfloor hbefore) hlast (hnow _ htoken)).imp hgood

theorem weaken {other : Nat → α → Prop} (h : Ranges input now floor reader other)
    (hgood : ∀ hi result, other hi result → good hi result) :
    Ranges input now floor reader good :=
  h.mono (Nat.le_refl _) (fun _ => id) hgood

theorem given_now {sort : Token → Prop} (hnow : ∀ token, now token → sort token)
    (h : Ranges input sort floor reader good) : Ranges input now floor reader good :=
  h.mono (Nat.le_refl _) hnow fun _ _ => id

theorem anywhere (h : Ranges input anything floor reader good) :
    Ranges input now floor reader good :=
  h.given_now fun _ _ => trivial

theorem at_input (h : Ranges input now floor (fun _ => reader input) good) :
    Ranges input now floor reader good :=
  h

theorem to_input (h : Ranges input now floor reader good) :
    Ranges input now floor (fun _ => reader input) good :=
  h

theorem of_input (h : input.LaidOut → Ranges input now floor reader good) :
    Ranges input now floor reader good :=
  fun hinput => h hinput hinput

section Turns

variable {first : Reader β} {next : β → Reader α} {firstGood : Nat → β → Prop}

theorem read (hfirst : Ranges input now floor first firstGood)
    (h : ∀ part middle, floor ≤ middle → (∀ hi, middle ≤ hi → firstGood hi part) →
      Ranges input anything middle (next part) good) :
    Ranges input now floor (first >>= next) good := by
  intro hinput before hfloor hlast hnow
  have hlanding := hfirst hinput before hfloor hlast hnow
  change Landing _ _ _ (EStateM.bind (first input) (fun result => next result input) before)
  unfold EStateM.bind
  cases hrun : first input before with
  | ok part middle =>
      rw [hrun] at hlanding
      obtain ⟨hle, hmiddle, hpart⟩ := hlanding
      have hreached := hinput.laidOut.stopBefore_mono hle hmiddle
      have hnext := h part _ (Nat.le_trans hfloor hreached) hpart hinput middle (Nat.le_refl _)
        hmiddle trivial
      dsimp only
      cases hend : next part input middle with
      | ok result after =>
          rw [hend] at hnext
          obtain ⟨hle', hafter, hgood⟩ := hnext
          exact .ok (Nat.le_trans hle hle') hafter hgood
      | error failure after =>
          rw [hend] at hnext
          obtain _ | hfault := hnext
          exact .error hfault
  | error failure middle =>
      rw [hrun] at hlanding
      obtain _ | hfault := hlanding
      exact .error hfault

theorem skip [hstill : Still first] (h : ∀ result, Ranges input now floor (next result) good) :
    Ranges input now floor (first >>= next) good := by
  intro hinput before hfloor hlast hnow
  obtain ⟨part, middle, hrun, hplace⟩ := hstill.eq_ok input before
  change Landing _ _ _ (EStateM.bind (first input) (fun result => next result input) before)
  rw [EStateM.bind, hrun, ← hplace]
  rw [← hplace] at hfloor hlast hnow
  exact h part hinput middle hfloor hlast hnow

theorem see {view : Token → β} [hsees : Sees first view]
    (h : ∀ token, now token → Ranges input (· = token) floor (next (view token)) good) :
    Ranges input now floor (first >>= next) good := by
  intro hinput before hfloor hlast hnow
  change Landing _ _ _ (EStateM.bind (first input) (fun result => next result input) before)
  rw [EStateM.bind, hsees.eq_ok]
  exact h _ hnow hinput before hfloor hlast rfl

theorem see_input {view : Token → β} [Sees first view]
    (h : ∀ token, now token → Ranges input (· = token) floor (next (view token)) good) :
    Ranges input now floor (fun input => first input >>= fun result => next result input) good :=
  see h

theorem given {value : β} (h : Ranges input now floor (next value) good) :
    Ranges input now floor (Pure.pure value >>= next) good :=
  h

theorem fail_bind {cause : Cause} {offset : Nat} (h : offset ≤ floor) :
    Ranges input now floor (failAt cause offset >>= next) good := by
  intro hinput before hfloor hlast hnow
  have hfail : Ranges input now floor (failAt cause offset : Reader α) good := fail h
  exact hfail hinput before hfloor hlast hnow

theorem span {start : Nat} {next : Span → Reader α}
    (h : ∀ stop, floor ≤ stop → Ranges input now stop (next ⟨start, stop⟩) good) :
    Ranges input now floor (spanFrom start >>= next) good := by
  intro hinput before hfloor hlast hnow
  have hstop : endOffset input before = .ok (input.tokens.stopBefore before.place) before := by
    obtain ⟨place, nextId⟩ := before
    cases place <;> rfl
  have hrun : (spanFrom start >>= next) input before =
      next ⟨start, input.tokens.stopBefore before.place⟩ input before := by
    change EStateM.bind (EStateM.bind (endOffset input) fun stop => EStateM.pure ⟨start, stop⟩)
      (fun span => next span input) before = _
    simp only [EStateM.bind, hstop, EStateM.pure]
  rw [hrun]
  exact h _ hfloor hinput before (Nat.le_refl _) hlast hnow

end Turns

theorem peek_input {ahead : Nat} {next : Token → Reader α}
    (h : ∀ token, Ranges input now floor (next token) good) :
    Ranges input now floor
      (fun input => peek ahead input >>= fun token => next token input) good :=
  fun hinput before hfloor hlast hnow => h _ hinput before hfloor hlast hnow

theorem ite {condition : Prop} [Decidable condition] {yes no : Reader α}
    (hyes : condition → Ranges input now floor yes good)
    (hno : ¬condition → Ranges input now floor no good) :
    Ranges input now floor (if condition then yes else no) good := by
  split
  · exact hyes ‹_›
  · exact hno ‹_›

section Tokens

theorem advance (hnow : ∀ token, now token → continues token) :
    Ranges input now floor Reader.advance fun hi token =>
      now token ∧ token.span.Fits floor hi := by
  intro hinput before hfloor hlast htoken
  have hlt := hinput.lt_size (hnow _ htoken)
  have hstart := hinput.laidOut.stopBefore_le_start hlast
  rw [Reader.advance, if_pos hlt]
  refine .ok (Nat.le_succ _) hlt fun hi hhi => ⟨htoken, ?_, (hinput.laidOut.solid _ hlt).2, hhi⟩
  exact Nat.le_trans hfloor hstart

theorem advance_name (hnow : ∀ token, now token → token.isMemberName = true) :
    Ranges input now floor Reader.advance fun hi token =>
      now token ∧ token.span.Fits floor hi := by
  intro hinput before hfloor hlast htoken
  have hcontinues : continues (input.tokens.get before.place) := by
    intro hkind
    have hname := hnow _ htoken
    rw [hinput.nameless _ hkind] at hname
    cases hname
  have hpassed : Ranges input (fun token => now token ∧ continues token) floor Reader.advance
      fun hi token => (now token ∧ continues token) ∧ token.span.Fits floor hi :=
    advance fun _ => And.right
  have hweaker : Ranges input (fun token => now token ∧ continues token) floor Reader.advance
      fun hi token => now token ∧ token.span.Fits floor hi :=
    hpassed.weaken fun hi token hgood => ⟨hgood.1.1, hgood.2⟩
  exact hweaker hinput before hfloor hlast ⟨htoken, hcontinues⟩

theorem take {next : Token → Reader α} (hnow : ∀ token, now token → continues token)
    (h : ∀ token middle, now token → token.span.Fits floor middle →
      Ranges input anything middle (next token) good) :
    Ranges input now floor (Reader.advance >>= next) good := by
  refine read (advance hnow) fun token middle _ htoken => ?_
  obtain ⟨hsort, hfits⟩ := htoken middle (Nat.le_refl _)
  exact h token middle hsort hfits

theorem take_name {next : Token → Reader α}
    (hnow : ∀ token, now token → token.isMemberName = true)
    (h : ∀ token middle, now token → token.span.Fits floor middle →
      Ranges input anything middle (next token) good) :
    Ranges input now floor (Reader.advance >>= next) good := by
  refine read (advance_name hnow) fun token middle _ htoken => ?_
  obtain ⟨hsort, hfits⟩ := htoken middle (Nat.le_refl _)
  exact h token middle hsort hfits

theorem pass : Ranges input now floor Reader.advance whatever := by
  intro _ before _ hlast _
  refine .ok ?_ ?_ fun _ _ => trivial
  · dsimp only
    split <;> omega
  · dsimp only
    split <;> omega

theorem expectOr {kind : TokenKind} {expectation : String} (hkind : kind ≠ .endOfInput) :
    Ranges input now floor (Reader.expectOr kind (Reader.failHere expectation)) fun hi token =>
      now token ∧ token.span.Fits floor hi := by
  refine see fun token htoken => ite (fun hfound => ?_) fun _ => failHere
  have hcontinues : ∀ other, other = token → continues other := by
    rintro _ rfl hends
    exact hkind ((beq_iff_eq.mp hfound).symm.trans hends)
  refine (advance hcontinues).weaken ?_
  rintro hi _ ⟨rfl, hfits⟩
  exact ⟨htoken, hfits⟩

theorem expect {kind : TokenKind} (hkind : kind ≠ .endOfInput) :
    Ranges input now floor (Reader.expect kind) fun hi token =>
      now token ∧ token.span.Fits floor hi :=
  expectOr hkind

theorem expectWord {word : String} : Ranges input now floor (Reader.expectWord word) whatever :=
  see fun _ _ => ite (fun _ => pass) fun _ => failHere

theorem expectSemicolon : Ranges input now floor Reader.expectSemicolon whatever := by
  unfold Reader.expectSemicolon
  refine see fun token _ => ite (fun _ => read pass fun _ _ _ _ => pure fun _ _ => trivial) fun _ => ?_
  refine ite (fun _ => pure fun _ _ => trivial) fun _ => fail_now ?_
  rintro _ rfl
  rfl

theorem skipIf {kind : TokenKind} : Ranges input now floor (Reader.skipIf kind) whatever :=
  see fun _ _ => ite (fun _ => read pass fun _ _ _ _ => pure fun _ _ => trivial) fun _ =>
    pure fun _ _ => trivial

theorem separator {close : TokenKind} :
    Ranges input now floor (Reader.separator close) whatever := by
  unfold Reader.separator
  refine see fun token _ => ite (fun _ => pure fun _ _ => trivial) fun _ => ?_
  exact read (expect nofun) fun _ _ _ _ => pure fun _ _ => trivial

end Tokens

section Repetition

variable {item : Reader α} {others : Reader (List α)} {finished : Reader Bool}

theorem optional {present : Bool} (h : Ranges input anything floor item good) :
    Ranges input now floor (Reader.optional present item) fun hi result? =>
      ∀ result ∈ result?.toList, good hi result := by
  unfold Reader.optional
  refine ite (fun _ => ?_) fun _ => pure fun _ _ => nofun
  refine read h.anywhere fun result middle _ hresult => pure fun hi hhi => ?_
  exact List.forall_mem_singleton.mpr (hresult hi hhi)

theorem collectUntil [Still finished]
    (h : ∀ later, floor ≤ later →
      Ranges input anything later others fun hi results => ∀ result ∈ results, good hi result) :
    Ranges input now floor (Reader.collectUntil finished others) fun hi results =>
      ∀ result ∈ results, good hi result := by
  have hbounded (limit : Nat) : ∀ later, floor ≤ later →
      Ranges input anything later (collectAtMost finished others limit) fun hi results =>
        ∀ result ∈ results, good hi result := by
    induction limit with
    | zero => exact fun _ _ => exhausted
    | succ limit ih =>
        intro later hlater
        refine skip fun ends => ite (fun _ => pure fun _ _ => nofun) fun _ => ?_
        refine read (h later hlater) fun first middle hmiddle hfirst => ?_
        refine read (ih middle (by omega)) fun rest last hrest hothers => pure fun hi hhi => ?_
        exact List.forall_mem_append.mpr ⟨hfirst hi (by omega), hothers hi hhi⟩
  exact skip fun limit => (hbounded limit floor (Nat.le_refl _)).anywhere

theorem separated (h : ∀ later, floor ≤ later → Ranges input anything later item good) :
    Ranges input now floor (Reader.separated item) fun hi results =>
      ∀ result ∈ results, good hi result := by
  have hbounded (limit : Nat) : ∀ later, floor ≤ later →
      Ranges input anything later (separatedAtMost item limit) fun hi results =>
        ∀ result ∈ results, good hi result := by
    induction limit with
    | zero => exact fun _ _ => exhausted
    | succ limit ih =>
        intro later hlater
        refine read (h later hlater) fun first middle hmiddle hfirst => ?_
        refine read skipIf fun more next hnext _ => ite (fun _ => ?_) fun _ => pure fun hi hhi => ?_
        · refine read (ih next (by omega)) fun rest last hlast hothers => pure fun hi hhi => ?_
          exact List.forall_mem_cons.mpr ⟨hfirst hi (by omega), hothers hi hhi⟩
        · exact List.forall_mem_singleton.mpr (hfirst hi (by omega))
  exact skip fun limit => (hbounded limit floor (Nat.le_refl _)).anywhere

/-- What holds of the state of a repetition or of its result. -/
def againGood (invariant : Nat → σ → Prop) (good : Nat → α → Prop) (hi : Nat) : Again σ α → Prop
  | .again state => invariant hi state
  | .done result => good hi result

theorem iterate {step : σ → Reader (Again σ α)} {invariant : Nat → σ → Prop}
    (h : ∀ state later, floor ≤ later → (∀ hi, later ≤ hi → invariant hi state) →
      Ranges input anything later (step state) (againGood invariant good))
    {state : σ} (hstate : ∀ hi, floor ≤ hi → invariant hi state) :
    Ranges input now floor (Reader.iterate step state) good := by
  have hbounded (limit : Nat) : ∀ state later, floor ≤ later →
      (∀ hi, later ≤ hi → invariant hi state) →
        Ranges input anything later (repeatAtMost step limit state) good := by
    induction limit with
    | zero => exact fun _ _ _ _ => exhausted
    | succ limit ih =>
        intro state later hlater hstate
        refine read (h state later hlater hstate) fun turn middle hmiddle hturn => ?_
        cases turn with
        | again next => exact ih next middle (by omega) hturn
        | done result => exact pure hturn
  exact skip fun limit => (hbounded limit state floor (Nat.le_refl _) hstate).anywhere

end Repetition

end Ranges

end Reader

end ScriptKinds
