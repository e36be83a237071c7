import ScriptKinds.Proofs.Grammar.MemberNames
import ScriptKinds.Proofs.Grammar.ScriptShape

namespace ScriptKinds

namespace Grammar

open Constituent Reader

section Dots

/-- Whether a stretch of tokens begins with three dots, behind opening parentheses at
most. -/
def OpensWithDots (tokens : TokenStream) (first last : Nat) : Prop :=
  ∃ dots, first ≤ dots ∧ dots < last ∧
    (∀ place, first ≤ place → place < dots → (tokens.get place).kind = .openParen) ∧
    (tokens.get dots).kind = .ellipsis

variable {tokens : TokenStream} {first middle last : Nat}

theorem OpensWithDots.group (h : OpensWithDots tokens (first + 1) middle)
    (hopening : (tokens.get first).kind = .openParen) (hle : middle ≤ last) :
    OpensWithDots tokens first last := by
  obtain ⟨dots, hfirst, hlast, hparens, hdots⟩ := h
  refine ⟨dots, Nat.le_of_succ_le hfirst, Nat.lt_of_lt_of_le hlast hle,
    fun place hplace hbefore => ?_, hdots⟩
  rcases Nat.eq_or_lt_of_le hplace with rfl | hlater
  · exact hopening
  · exact hparens place hlater hbefore

/-- A spread is written with dots. -/
def Dotted (tokens : TokenStream) (first last : Nat) : Node → Prop
  | .expr (.spread _ _) => OpensWithDots tokens first last
  | _ => True

theorem Dotted.group {expr : Expr} (h : Dotted tokens (first + 1) middle (.expr expr))
    (hopening : (tokens.get first).kind = .openParen) (hle : middle ≤ last) :
    Dotted tokens first last (.expr expr) := by
  cases expr with
  | spread => exact OpensWithDots.group h hopening hle
  | _ => trivial

theorem Production.dotted (hends : tokens.last.kind = .endOfInput) {node : Node}
    {parts : List Constituent} (hproduction : Production node parts)
    (h : Derived tokens (Dotted tokens) first last parts) : Dotted tokens first last node := by
  cases hproduction with
  | spread hdots =>
      obtain ⟨rfl, hargument⟩ := h.of_token hends (by simp [hdots])
      exact ⟨first, Nat.le_refl _, hargument.le, fun place hle hlt => by omega, hdots⟩
  | group hgroup =>
      obtain ⟨hopening, hclosing⟩ := hgroup
      obtain ⟨rfl, hinner⟩ := h.of_token hends (by simp [hopening])
      cases hinner with
      | node _ hkeeps _ hothers => exact hkeeps.group hopening hothers.le
  | _ => trivial

end Dots

section Ends

variable {input : Input} {nt : Nonterminals} {power lower : Power} {before after : Progress}

/-- Whether no token that binds closer than a power continues an expression that ends in
front of a token. -/
def Halts (grammar : Grammar) (power : Power) (token : Token) : Prop :=
  ∀ form own, grammar.trailing? token.kind = some (form, own) →
    own ≤ power ∨ startsLineUpdate token = true

theorem Halts.mono {grammar : Grammar} {token : Token} (h : Halts grammar lower token)
    (hle : lower ≤ power) : Halts grammar power token :=
  fun form own htrailing => (h form own htrailing).imp_left (Nat.le_trans · hle)

theorem readContinuation_of_halts
    (h : Halts input.grammar power (input.tokens.get before.place)) (left : Expr) :
    readContinuation nt power left input before = .ok (.done left) before := by
  simp only [readContinuation, current, peek, bind, EStateM.bind, Nat.add_zero]
  cases htrailing : input.grammar.trailing? (input.tokens.get before.place).kind with
  | none => rfl
  | some trailing =>
      obtain ⟨form, own⟩ := trailing
      simp only [h form own htrailing, if_true]
      rfl

theorem iterate_of_halts (h : Halts input.grammar power (input.tokens.get before.place))
    (left : Expr) : iterate (readContinuation nt power) left input before = .ok left before := by
  simp only [iterate, bound, repeatAtMost, bind, ReaderT.bind, EStateM.bind,
    readContinuation_of_halts h]
  rfl

theorem halts_of_done {left result : Expr}
    (h : readContinuation nt power left input before = .ok (.done result) after) :
    Halts input.grammar power (input.tokens.get after.place) := by
  simp only [readContinuation, current, peek, bind, EStateM.bind, Nat.add_zero] at h
  cases htrailing : input.grammar.trailing? (input.tokens.get before.place).kind with
  | none =>
      rw [htrailing] at h
      cases h
      intro form own hsome
      cases htrailing.symm.trans hsome
  | some trailing =>
      obtain ⟨form, own⟩ := trailing
      simp only [htrailing] at h
      split at h
      · rename_i hstop
        cases h
        rintro form own hsome
        cases htrailing.symm.trans hsome
        exact hstop
      · have hagain : (readTrailing nt left own form >>= fun reached => pure (Again.again reached) :
            Reader (Again Expr Expr)) input before = .ok (.done result) after := h
        obtain ⟨reached, middle, -, hpure⟩ := bind_ok hagain
        cases hpure

theorem repeatAtMost_done {σ α : Type} {step : σ → Reader (Again σ α)} {bound : Nat} {state : σ}
    {result : α} (h : repeatAtMost step bound state input before = .ok result after) :
    ∃ last middle, step last input middle = .ok (.done result) after := by
  induction bound generalizing state before with
  | zero => cases h
  | succ bound ih =>
      obtain ⟨next, middle, hstep, hrest⟩ := bind_ok h
      cases next with
      | again next => exact ih hrest
      | done =>
          cases hrest
          exact ⟨state, before, hstep⟩

theorem halts_of_readExpr {value : Expr}
    (h : readExpr nt power input before = .ok value after) :
    Halts input.grammar power (input.tokens.get after.place) := by
  simp only [readExpr, current, peek, bind, EStateM.bind, Nat.add_zero] at h
  cases hleading : input.grammar.leading? (input.tokens.get before.place).kind with
  | none =>
      rw [hleading] at h
      cases h
  | some form =>
      simp only [hleading] at h
      have hread : (readLeading nt form >>= iterate (readContinuation nt power)) input before =
          .ok value after := h
      obtain ⟨left, middle, -, hloop⟩ := bind_ok hread
      obtain ⟨last, reached, hdone⟩ := repeatAtMost_done hloop
      exact halts_of_done hdone

/-- At three dots an expression is a spread, whatever the power is, as long as that does
not let a comma continue it. -/
theorem readExpr_of_dots (hscript : input.grammar = .script) (depth : Nat)
    (hpower : .comma ≤ power) (hdots : (input.tokens.get before.place).kind = .ellipsis) :
    (nonterminals (depth + 1)).expr power input before =
      readSpread (nonterminals depth) input before := by
  have hread : readExpr (nonterminals depth) power input before =
      EStateM.bind (readSpread (nonterminals depth) input)
        (fun left => iterate (readContinuation (nonterminals depth) power) left input) before := by
    simp only [readExpr, current, peek, bind, EStateM.bind, Nat.add_zero, hscript, hdots]
    rfl
  refine hread.trans ?_
  rw [EStateM.bind]
  cases hspread : readSpread (nonterminals depth) input before with
  | error failure after => rfl
  | ok value after =>
      obtain ⟨dots, middle, -, hrest⟩ := bind_ok hspread
      obtain ⟨argument, last, hargument, hlast⟩ := bind_ok hrest
      cases hlast
      cases depth with
      | zero => cases hargument
      | succ depth =>
          have hhalts := (halts_of_readExpr hargument).mono hpower
          exact iterate_of_halts hhalts _

end Ends

end Grammar

namespace Script

open Grammar Grammar.Constituent

variable {file : String} {tokens : List Token} {script : Script}

theorem target_ne_spread (h : ofTokens file tokens = .ok script) {target argument : Expr}
    {span : Span}
    (htarget : (∃ operator leading whole,
        Node.Inside (.expr (.update operator target leading whole)) (.block script.root)) ∨
      ∃ operator value whole,
        Node.Inside (.expr (.assignment operator target value whole)) (.block script.root)) :
    target ≠ .spread argument span := by
  obtain ⟨after, hrun, -⟩ := ofTokens_ok h
  have hyields : Reader.Yields ⟨.ofList tokens, file, .script⟩ Reader.anything
      (readScript (nonterminals (depthOf (.ofList tokens)))) (WellFormedAs .block) :=
    yields_readScript (nonterminals_yielding rfl _)
  have hformed : (Node.block script.root).WellFormed := hyields _ _ _ trivial hrun
  have hreference : target.IsReference := by
    rcases htarget with ⟨_, _, _, hinside⟩ | ⟨_, _, _, hinside⟩
    · exact hformed _ hinside
    · exact (hformed _ hinside).1
  rintro rfl
  cases hreference

/-- Every spread in the tree of a script is written with three dots where it begins,
behind opening parentheses at most, and it is not assigned to.  Conversely three dots
make a spread of whatever expression they begin, in a list or elsewhere. -/
theorem spreads_written (file : String) (tokens : List Token) :
    (∀ script, ofTokens file tokens = .ok script →
      (∀ argument span, Node.Inside (.expr (.spread argument span)) (.block script.root) →
        ∃ first last,
          Derivation (.ofList tokens) first last [.node (.expr (.spread argument span))] ∧
            OpensWithDots (.ofList tokens) first last) ∧
      (∀ operator argument span leading whole,
        ¬Node.Inside (.expr (.update operator (.spread argument span) leading whole))
          (.block script.root)) ∧
      ∀ operator argument span value whole,
        ¬Node.Inside (.expr (.assignment operator (.spread argument span) value whole))
          (.block script.root)) ∧
    ∀ depth power before, .comma ≤ power →
      ((TokenStream.ofList tokens).get before.place).kind = .ellipsis →
        (nonterminals (depth + 1)).expr power ⟨.ofList tokens, file, .script⟩ before =
          readSpread (nonterminals depth) ⟨.ofList tokens, file, .script⟩ before := by
  refine ⟨fun script hscript => ⟨fun argument span hinside => ?_, ?_, ?_⟩, ?_⟩
  · obtain ⟨last, -, hderivation⟩ := derivation hscript
    have hdotted := hderivation.keep fun hproduction hparts =>
      hproduction.dotted (closed_ofList file tokens).ends hparts
    rcases written_of_inside hdotted hinside with heq | ⟨first, last, hnode | hbare⟩ | ⟨name, heq⟩
    · cases heq
    · have hderived := hnode.keep fun _ _ => trivial
      cases hnode with
      | node _ hkeeps _ hnil =>
          cases hnil
          exact ⟨first, _, hderived, hkeeps⟩
    · cases hbare with
      | bare hproduction => cases hproduction
    · cases heq
  · intro operator argument span leading whole hinside
    exact target_ne_spread hscript (.inl ⟨_, _, _, hinside⟩) rfl
  · intro operator argument span value whole hinside
    exact target_ne_spread hscript (.inr ⟨_, _, _, hinside⟩) rfl
  · intro depth power before hpower hdots
    exact readExpr_of_dots rfl depth hpower hdots

/-- The tokens of `f(...a)`. -/
def callTokens : List Token :=
  [⟨.identifier, "f", ⟨0, 1⟩, false⟩, ⟨.openParen, "(", ⟨1, 2⟩, false⟩,
    ⟨.ellipsis, "...", ⟨2, 5⟩, false⟩, ⟨.identifier, "a", ⟨5, 6⟩, false⟩,
    ⟨.closeParen, ")", ⟨6, 7⟩, false⟩, .endAt 7 false]

theorem spreads_written_in_call :
    (∃ script first last, ofTokens "call.js" callTokens = .ok script ∧
      Node.Inside (.expr (.spread (.symbol ⟨"a", 2⟩ ⟨5, 6⟩) ⟨2, 6⟩)) (.block script.root) ∧
      OpensWithDots (.ofList callTokens) first last) ∧
    ((TokenStream.ofList callTokens).get 2).kind = .ellipsis ∧
    (nonterminals 3).expr .comma ⟨.ofList callTokens, "call.js", .script⟩ ⟨2, 2⟩ =
      readSpread (nonterminals 2) ⟨.ofList callTokens, "call.js", .script⟩ ⟨2, 2⟩ := by
  obtain ⟨hscripts, hreads⟩ := spreads_written "call.js" callTokens
  obtain ⟨script, hscript, hinside⟩ : ∃ script, ofTokens "call.js" callTokens = .ok script ∧
      Node.Inside (.expr (.spread (.symbol ⟨"a", 2⟩ ⟨5, 6⟩) ⟨2, 6⟩)) (.block script.root) :=
    ⟨⟨⟨0, [.expression (.call (.symbol ⟨"f", 1⟩ ⟨0, 1⟩)
        [.spread (.symbol ⟨"a", 2⟩ ⟨5, 6⟩) ⟨2, 6⟩] ⟨0, 7⟩) ⟨0, 7⟩], ⟨0, 7⟩⟩, 3⟩, rfl,
      .deeper List.mem_cons_self (.deeper List.mem_cons_self
        (.child (List.mem_cons_of_mem _ List.mem_cons_self)))⟩
  obtain ⟨first, last, -, hdots⟩ := (hscripts script hscript).1 _ _ hinside
  exact ⟨⟨script, first, last, hscript, hinside, hdots⟩, rfl,
    hreads 2 .comma ⟨2, 2⟩ (Nat.le_refl _) rfl⟩

/-- A variable may have a spread as its value. -/
theorem spread_in_declarator :
    ∃ tokens script, Token.ofSource "value.js" "var a = ...b;" = .ok tokens ∧
      ofTokens "value.js" tokens = .ok script ∧
      Node.Inside (.declarator ⟨.name ⟨"a", 1⟩, some (.spread (.symbol ⟨"b", 2⟩ ⟨11, 12⟩) ⟨8, 12⟩),
        ⟨4, 12⟩⟩) (.block script.root) := by
  have htokens : Token.ofSource "value.js" "var a = ...b;" = .ok
      [⟨.varWord, "var", ⟨0, 3⟩, false⟩, ⟨.identifier, "a", ⟨4, 5⟩, false⟩,
        ⟨.assignment, "=", ⟨6, 7⟩, false⟩, ⟨.ellipsis, "...", ⟨8, 11⟩, false⟩,
        ⟨.identifier, "b", ⟨11, 12⟩, false⟩, ⟨.semicolon, ";", ⟨12, 13⟩, false⟩,
        .endAt 13 false] := by
    have hlength : "var a = ...b;".toList.length ≤ 13 := by decide
    rw [← Token.ofSourceWithin_eq hlength]
    rfl
  refine ⟨_, ⟨⟨0, [.varDeclaration .var [⟨.name ⟨"a", 1⟩,
    some (.spread (.symbol ⟨"b", 2⟩ ⟨11, 12⟩) ⟨8, 12⟩), ⟨4, 12⟩⟩] ⟨0, 12⟩], ⟨0, 13⟩⟩, 3⟩, htokens,
    rfl, ?_⟩
  exact .deeper List.mem_cons_self (.child List.mem_cons_self)

end Script

end ScriptKinds
