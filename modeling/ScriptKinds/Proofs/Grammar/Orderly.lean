import ScriptKinds.Proofs.Grammar.ScriptRanges
import ScriptKinds.Proofs.Grammar.ScriptShape

namespace ScriptKinds

/-- Whether one state of reading may come later than another one. -/
structure Progress.Precedes (tokens : TokenStream) (before after : Progress) : Prop where
  place_le : before.place ≤ after.place
  /-- The last token is not passed. -/
  place_le_max : after.place ≤ max before.place tokens.body.size
  nextId_le : before.nextId ≤ after.nextId

namespace Progress.Precedes

variable {tokens : TokenStream} {before middle after : Progress}

theorem refl (progress : Progress) : progress.Precedes tokens progress :=
  ⟨Nat.le_refl _, Nat.le_max_left _ _, Nat.le_refl _⟩

theorem trans (h : before.Precedes tokens middle) (h' : middle.Precedes tokens after) :
    before.Precedes tokens after :=
  ⟨h.place_le.trans h'.place_le,
    h'.place_le_max.trans (Nat.max_le.mpr ⟨h.place_le_max, Nat.le_max_right _ _⟩),
    h.nextId_le.trans h'.nextId_le⟩

end Progress.Precedes

/-- If a fault is a malformed number, that is a number token without a value, and
the fault lies where the token starts. -/
def Fault.Blames (tokens : TokenStream) (file : String) (fault : Fault) : Prop :=
  ∀ text, fault.cause = .malformedNumber text →
    ∃ place, (tokens.get place).kind = .number ∧ (tokens.get place).text = text ∧
      Literal.value? text = none ∧ fault.position = ⟨(tokens.get place).span.start, file⟩

namespace Reader

variable {α β σ : Type} {input : Input}

/-- A reader that does not go back, whether it succeeds or fails, and calls no number
malformed that has a value. -/
class Orderly (input : Input) (reader : Reader α) : Prop where
  ok : ∀ {before result after}, reader input before = .ok result after →
    before.Precedes input.tokens after
  error : ∀ {before failure after}, reader input before = .error failure after →
    before.Precedes input.tokens after
  blames : ∀ {before fault after}, reader input before = .error (.fault fault) after →
    fault.Blames input.tokens input.file

section Rules

theorem Orderly.of_view {reader : Reader α} (view : Progress → α)
    (h : ∀ before, reader input before = .ok (view before) before) : Orderly input reader where
  ok {before result after} hrun := by
    cases (h before).symm.trans hrun
    exact .refl before
  error hrun := nomatch (h _).symm.trans hrun
  blames hrun := nomatch (h _).symm.trans hrun

theorem Orderly.of_failure {reader : Reader α} {failure : Failure}
    (h : ∀ before, reader input before = .error failure before)
    (hblames : ∀ fault, failure = .fault fault → fault.Blames input.tokens input.file) :
    Orderly input reader where
  ok hrun := nomatch (h _).symm.trans hrun
  error {before failure after} hrun := by
    cases (h before).symm.trans hrun
    exact .refl before
  blames {before fault after} hrun := by
    cases (h before).symm.trans hrun
    exact hblames fault rfl

theorem Orderly.of_eq {reader other : Reader α} (h : Orderly input reader)
    (heq : other input = reader input) : Orderly input other where
  ok hrun := h.ok (by rwa [← heq])
  error hrun := h.error (by rwa [← heq])
  blames hrun := h.blames (by rwa [← heq])

theorem bind_error {reader : Reader α} {next : α → Reader β} {before after : Progress}
    {failure : Failure} (h : (reader >>= next) input before = .error failure after) :
    reader input before = .error failure after ∨
      ∃ value middle, reader input before = .ok value middle ∧
        next value input middle = .error failure after := by
  change EStateM.bind (reader input) (fun value => next value input) before = _ at h
  unfold EStateM.bind at h
  split at h
  · exact .inr ⟨_, _, ‹_›, h⟩
  · cases h
    exact .inl ‹_›

theorem Orderly.bind {reader : Reader α} {next : α → Reader β} (h : Orderly input reader)
    (hnext : ∀ {before value middle}, reader input before = .ok value middle →
      Orderly input (next value)) : Orderly input (reader >>= next) where
  ok hrun := by
    obtain ⟨value, middle, hfirst, hrest⟩ := bind_ok hrun
    exact (h.ok hfirst).trans ((hnext hfirst).ok hrest)
  error hrun := by
    rcases bind_error hrun with hfirst | ⟨value, middle, hfirst, hrest⟩
    · exact h.error hfirst
    · exact (h.ok hfirst).trans ((hnext hfirst).error hrest)
  blames hrun := by
    rcases bind_error hrun with hfirst | ⟨value, middle, hfirst, hrest⟩
    · exact h.blames hfirst
    · exact (hnext hfirst).blames hrest

theorem Orderly.read {reader : Reader α} {next : α → Reader β} (h : Orderly input reader)
    (hnext : ∀ first, Orderly input (next first)) : Orderly input (reader >>= next) :=
  h.bind fun _ => hnext _

theorem Orderly.read_input {reader : Reader α} {next : α → Reader β} (h : Orderly input reader)
    (hnext : ∀ first, Orderly input fun _ => next first input) :
    Orderly input fun input => reader input >>= fun first => next first input :=
  (h.read fun first => (hnext first).of_eq rfl).of_eq rfl

theorem Orderly.at_input {reader : Reader α} (h : Orderly input reader) :
    Orderly input fun _ => reader input :=
  h.of_eq rfl

instance (result : α) : Orderly input (pure result : Reader α) :=
  .of_view (fun _ => result) fun _ => rfl

instance (reader : Reader α) (next : α → Reader β) [h : Orderly input reader]
    [hnext : ∀ first, Orderly input (next first)] : Orderly input (reader >>= next) :=
  h.read hnext

instance (condition : Prop) [Decidable condition] (yes no : Reader α) [Orderly input yes]
    [Orderly input no] : Orderly input (if condition then yes else no) := by
  split <;> infer_instance

instance (ahead : Nat) : Orderly input (peek ahead) :=
  .of_view _ fun _ => rfl

instance : Orderly input current :=
  .of_view _ fun _ => rfl

instance : Orderly input bound :=
  .of_view _ fun _ => rfl

instance : Orderly input endOffset :=
  .of_view (fun before => match before.place with
    | 0 => 0
    | place + 1 => (input.tokens.get place).span.stop) fun ⟨place, _⟩ => by cases place <;> rfl

instance : Orderly input (exhausted : Reader α) :=
  .of_failure (fun _ => rfl) nofun

instance : Orderly input (breakOff : Reader α) :=
  .of_failure (fun _ => rfl) nofun

instance : Orderly input freshId where
  ok hrun := by
    cases hrun
    exact ⟨Nat.le_refl _, Nat.le_max_left _ _, Nat.le_succ _⟩
  error := nofun
  blames := nofun

instance : Orderly input advance where
  ok {before result after} hrun := by
    cases hrun
    refine ⟨?_, ?_, Nat.le_refl _⟩ <;> dsimp only <;> split <;> omega
  error := nofun
  blames := nofun

theorem Orderly.pass {next : Token → Reader α}
    (h : ∀ place, Orderly input (next (input.tokens.get place))) :
    Orderly input (advance >>= next) := by
  refine .bind inferInstance fun {before value middle} hrun => ?_
  cases hrun
  exact h before.place

theorem orderly_failAt {cause : Cause} {offset : Nat} (h : ∀ text, cause ≠ .malformedNumber text) :
    Orderly input (failAt cause offset : Reader α) := by
  refine .of_failure (fun _ => rfl) fun fault hfault text hcause => ?_
  cases hfault
  exact absurd hcause (h text)

instance (text : String) (offset : Nat) :
    Orderly input (failAt (.unexpected text) offset : Reader α) :=
  orderly_failAt nofun

instance (form : String) (offset : Nat) :
    Orderly input (failAt (.invalidTarget form) offset : Reader α) :=
  orderly_failAt nofun

instance (text expectation : String) (offset : Nat) :
    Orderly input (failAt (.expected text expectation) offset : Reader α) :=
  orderly_failAt nofun

instance (expectation : String) (token : Token) :
    Orderly input (failExpecting expectation token : Reader α) := by
  unfold failExpecting; infer_instance

instance (expectation : String) : Orderly input (failHere expectation : Reader α) := by
  unfold failHere; infer_instance

instance : Orderly input offset := by
  unfold offset; infer_instance

instance (kind : TokenKind) : Orderly input (atKind kind) := by
  unfold atKind; infer_instance

instance (kinds : List TokenKind) : Orderly input (atOneOf kinds) := by
  unfold atOneOf; infer_instance

instance (word : String) : Orderly input (atWord word) := by
  unfold atWord; infer_instance

instance : Orderly input hasTokens := by
  unfold hasTokens; infer_instance

instance (kind : TokenKind) (failure : Reader Token) [Orderly input failure] :
    Orderly input (expectOr kind failure) := by
  unfold expectOr; infer_instance

instance (kind : TokenKind) : Orderly input (expect kind) := by
  unfold expect; infer_instance

instance (word : String) : Orderly input (expectWord word) := by
  unfold expectWord; infer_instance

instance : Orderly input expectSemicolon := by
  unfold expectSemicolon; infer_instance

instance (kind : TokenKind) : Orderly input (skipIf kind) := by
  unfold skipIf; infer_instance

instance (close : TokenKind) : Orderly input (separator close) := by
  unfold separator; infer_instance

instance (start : Nat) : Orderly input (spanFrom start) := by
  unfold spanFrom; infer_instance

instance (present : Bool) (item : Reader α) [Orderly input item] :
    Orderly input (optional present item) := by
  unfold optional; infer_instance

instance (finished : Reader Bool) (item : Reader (List α)) [Orderly input finished]
    [Orderly input item] : Orderly input (collectUntil finished item) := by
  have hbounded (limit : Nat) : Orderly input (collectAtMost finished item limit) := by
    induction limit with
    | zero => unfold collectAtMost; infer_instance
    | succ limit ih => unfold collectAtMost; infer_instance
  unfold collectUntil
  infer_instance

instance (item : Reader α) [Orderly input item] : Orderly input (separated item) := by
  have hbounded (limit : Nat) : Orderly input (separatedAtMost item limit) := by
    induction limit with
    | zero => unfold separatedAtMost; infer_instance
    | succ limit ih => unfold separatedAtMost; infer_instance
  unfold separated
  infer_instance

instance (step : σ → Reader (Again σ α)) (state : σ) [h : ∀ state, Orderly input (step state)] :
    Orderly input (iterate step state) := by
  have hbounded (limit : Nat) : ∀ state, Orderly input (repeatAtMost step limit state) := by
    induction limit with
    | zero =>
        intro state
        unfold repeatAtMost
        infer_instance
    | succ limit ih =>
        intro state
        unfold repeatAtMost
        refine (h state).read fun turn => ?_
        cases turn with
        | again next => exact ih next
        | done result => infer_instance
  unfold iterate
  infer_instance

end Rules

end Reader

namespace Grammar

open Reader

variable {input : Input} {nt : Nonterminals}

/-- Expressions, statements and patterns are read in order. -/
class Nonterminals.InOrder (input : Input) (nt : Nonterminals) : Prop where
  expr : ∀ power, Orderly input (nt.expr power)
  stmt : Orderly input nt.stmt
  pattern : Orderly input nt.pattern

section Readers

-- The instance for a reader that does many things in turn is a long one.
set_option synthInstance.maxSize 2000

variable [hnt : nt.InOrder input]

instance (power : Power) : Orderly input (nt.expr power) :=
  hnt.expr power

instance : Orderly input nt.stmt :=
  hnt.stmt

instance : Orderly input nt.pattern :=
  hnt.pattern

instance : Orderly input (readDefault nt) := by
  unfold readDefault; infer_instance

instance (failure : Reader Token) [Orderly input failure] : Orderly input (readName failure) := by
  unfold readName; infer_instance

instance : Orderly input (readPatternElement nt) := by
  unfold readPatternElement; infer_instance

instance : Orderly input (readArrayPatternItem nt) := by
  unfold readArrayPatternItem; infer_instance

instance : Orderly input (readPatternProperty nt) := by
  unfold readPatternProperty; infer_instance

instance : Orderly input (readObjectPatternItem nt) := by
  unfold readObjectPatternItem; infer_instance

instance : Orderly input (readPattern nt) := by
  unfold readPattern; infer_instance

instance (expectation : String) : Orderly input (readTarget nt expectation) := by
  unfold readTarget; infer_instance

instance : Orderly input (readParameter nt) := by
  unfold readParameter; infer_instance

instance : Orderly input (readParameters nt) := by
  unfold readParameters; infer_instance

instance : Orderly input (readBlock nt) := by
  unfold readBlock; infer_instance

instance : Orderly input (readArrowBody nt) := by
  unfold readArrowBody; infer_instance

instance (start : Nat) (name? : Option Identifier) :
    Orderly input (readFunction nt start name?) := by
  unfold readFunction; infer_instance

instance : Orderly input readOptionalName := by
  unfold readOptionalName; infer_instance

instance (words : List String) : Orderly input (skipModifier words) := by
  unfold skipModifier; infer_instance

instance (key : Token) : Orderly input (readMemberValue nt key) := by
  unfold readMemberValue; infer_instance

instance : Orderly input (readMember nt) := by
  unfold readMember
  refine .read inferInstance fun skipped => ?_
  split <;> infer_instance

instance : Orderly input (readClassTail nt) := by
  unfold readClassTail; infer_instance

/-- The one place where a number is blamed. -/
instance : Orderly input readPrimary := by
  refine .pass fun place => ?_
  split
  · split
    · infer_instance
    · refine .of_failure (fun _ => rfl) fun fault hfault text hcause => ?_
      cases hfault
      cases hcause
      exact ⟨place, ‹_›, rfl, ‹_›, rfl⟩
  all_goals infer_instance

instance (target : Expr) : Orderly input (checkAssignable target) := by
  unfold checkAssignable; infer_instance

instance : Orderly input (readArguments nt) := by
  unfold readArguments; infer_instance

instance : Orderly input (readElement nt) := by
  unfold readElement; infer_instance

instance : Orderly input (readArray nt) := by
  unfold readArray; infer_instance

instance : Orderly input (readSpread nt) := by
  unfold readSpread; infer_instance

instance (key : Token) : Orderly input (readPropertyValue nt key) := by
  unfold readPropertyValue; infer_instance

instance : Orderly input (readPropertyEntry nt) := by
  unfold readPropertyEntry; infer_instance

instance : Orderly input (readProperty nt) := by
  unfold readProperty; infer_instance

instance : Orderly input (readObject nt) := by
  unfold readObject; infer_instance

instance (read : List String × List Expr) : Orderly input (readSubstitution nt read) := by
  unfold readSubstitution; infer_instance

instance : Orderly input (readTemplate nt) := by
  unfold readTemplate; infer_instance

instance : Orderly input readRegex := by
  refine .read inferInstance fun token => ?_
  split <;> infer_instance

instance : Orderly input atArrowParameters :=
  .of_view _ fun _ => rfl

instance : Orderly input (readGroup nt) := by
  unfold readGroup; infer_instance

instance : Orderly input (readUnary nt) := by
  unfold readUnary; infer_instance

instance : Orderly input (readLeadingUpdate nt) := by
  unfold readLeadingUpdate; infer_instance

instance : Orderly input (readNew nt) := by
  unfold readNew; infer_instance

instance : Orderly input (readFunctionExpr nt) := by
  unfold readFunctionExpr; infer_instance

instance : Orderly input (readClassExpr nt) := by
  unfold readClassExpr; infer_instance

instance (form : LeadingForm) : Orderly input (readLeading nt form) := by
  cases form <;> unfold readLeading <;> infer_instance

instance (left : Expr) : Orderly input (readSequence nt left) := by
  unfold readSequence; infer_instance

instance (left : Expr) : Orderly input (readAssignment nt left) := by
  unfold readAssignment; infer_instance

instance (left : Expr) : Orderly input (readArrow nt left) := by
  unfold readArrow; split <;> infer_instance

instance (left : Expr) : Orderly input (readConditional nt left) := by
  unfold readConditional; infer_instance

instance (power : Power) (left : Expr) : Orderly input (readBinary nt power left) := by
  unfold readBinary; infer_instance

instance (left : Expr) : Orderly input (readTrailingUpdate left) := by
  unfold readTrailingUpdate; infer_instance

instance (left : Expr) : Orderly input (readCall nt left) := by
  unfold readCall; infer_instance

instance (left : Expr) : Orderly input (readMemberAccess left) := by
  unfold readMemberAccess; infer_instance

instance (left : Expr) : Orderly input (readIndex nt left) := by
  unfold readIndex; infer_instance

instance (left : Expr) (power : Power) (form : TrailingForm) :
    Orderly input (readTrailing nt left power form) := by
  cases form <;> unfold readTrailing <;> infer_instance

instance (power : Power) (left : Expr) : Orderly input (readContinuation nt power left) := by
  refine .read_input inferInstance fun token => ?_
  split
  · exact .of_view _ fun _ => rfl
  · rename_i form own _
    split
    · exact .of_view _ fun _ => rfl
    · have hturn : Orderly input (do return .again (← readTrailing nt left own form) :
          Reader (Again Expr Expr)) := inferInstance
      exact hturn.at_input

instance (power : Power) : Orderly input (readExpr nt power) := by
  refine .read_input inferInstance fun token => ?_
  split
  · exact .at_input inferInstance
  · rename_i form _
    have hread : Orderly input (readLeading nt form >>= iterate (readContinuation nt power)) :=
      inferInstance
    exact hread.at_input

instance (kind : DeclarationKind) : Orderly input (readDeclarator nt kind) := by
  unfold readDeclarator
  refine .read inferInstance fun start => .read inferInstance fun target => ?_
  refine .read inferInstance fun value? => ?_
  split <;> infer_instance

instance : Orderly input (readVariables nt) := by
  unfold readVariables; infer_instance

instance : Orderly input (readVariablesStmt nt) := by
  unfold readVariablesStmt; infer_instance

instance (token : Token) : Orderly input (importBinding token) := by
  unfold importBinding; infer_instance

instance : Orderly input readImportItem := by
  unfold readImportItem
  dsimp only
  infer_instance

instance : Orderly input readImportBindings := by
  unfold readImportBindings
  dsimp only
  infer_instance

instance : Orderly input readImports := by
  unfold readImports; infer_instance

instance : Orderly input (readFunctionStmt nt) := by
  unfold readFunctionStmt; infer_instance

instance : Orderly input (readDefaultExport nt) := by
  unfold readDefaultExport; infer_instance

instance : Orderly input readExportItem := by
  unfold readExportItem; infer_instance

instance : Orderly input readExportList := by
  unfold readExportList
  dsimp only
  infer_instance

instance : Orderly input (readExports nt) := by
  unfold readExports; infer_instance

instance : Orderly input (readCondition nt) := by
  unfold readCondition; infer_instance

instance : Orderly input (readConditionalStmt nt) := by
  unfold readConditionalStmt; infer_instance

instance : Orderly input (readWhile nt) := by
  unfold readWhile; infer_instance

instance : Orderly input (readDoWhile nt) := by
  unfold readDoWhile; infer_instance

instance : Orderly input atForEachHead :=
  .of_view _ fun _ => rfl

instance (start : Nat) : Orderly input (readForEach nt start) := by
  unfold readForEach
  dsimp only
  infer_instance

instance : Orderly input (readLoopStart nt) := by
  unfold readLoopStart; infer_instance

instance (start : Nat) : Orderly input (readForParts nt start) := by
  unfold readForParts
  refine .read inferInstance fun init? => .read inferInstance fun first => ?_
  infer_instance

instance : Orderly input (readFor nt) := by
  unfold readFor; infer_instance

instance : Orderly input (readResult nt) := by
  unfold readResult; infer_instance

instance (jump : Span → Stmt) : Orderly input (readJump jump) := by
  unfold readJump; infer_instance

instance : Orderly input readEmpty := by
  unfold readEmpty; infer_instance

instance : Orderly input (readLabeled nt) := by
  unfold readLabeled; infer_instance

instance : Orderly input (readRaise nt) := by
  unfold readRaise; infer_instance

instance : Orderly input (readCatchParameter nt) := by
  unfold readCatchParameter; infer_instance

instance : Orderly input (readCatch nt) := by
  unfold readCatch; infer_instance

instance : Orderly input (readGuarded nt) := by
  unfold readGuarded; infer_instance

instance : Orderly input atClauseEnd := by
  unfold atClauseEnd; infer_instance

instance : Orderly input (readClauseTest nt) := by
  unfold readClauseTest; infer_instance

instance : Orderly input (readClause nt) := by
  unfold readClause; infer_instance

instance : Orderly input (readSwitch nt) := by
  unfold readSwitch; infer_instance

instance : Orderly input (readClassStmt nt) := by
  unfold readClassStmt; infer_instance

instance (form : StatementForm) : Orderly input (readForm nt form) := by
  cases form <;> unfold readForm <;> infer_instance

instance : Orderly input (readExpressionStmt nt) := by
  unfold readExpressionStmt; infer_instance

instance : Orderly input (readStmt nt) := by
  refine .read_input inferInstance fun token => .read_input (.at_input inferInstance) fun next => ?_
  split
  · exact .at_input inferInstance
  · split <;> exact .at_input inferInstance

instance : Orderly input (readScript nt) := by
  unfold readScript; infer_instance

end Readers

theorem nonterminals_inOrder (input : Input) (depth : Nat) :
    (nonterminals depth).InOrder input := by
  induction depth with
  | zero =>
      have hexhausted {α : Type} : Orderly input (Reader.exhausted : Reader α) := inferInstance
      exact ⟨fun _ => hexhausted, hexhausted, hexhausted⟩
  | succ depth ih =>
      refine ⟨fun power => ?_, ?_, ?_⟩
      · exact inferInstanceAs (Orderly input (readExpr (nonterminals depth) power))
      · exact inferInstanceAs (Orderly input (readStmt (nonterminals depth)))
      · exact inferInstanceAs (Orderly input (readPattern (nonterminals depth)))

end Grammar

end ScriptKinds
