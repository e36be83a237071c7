import ScriptKinds.Grammar.Expression
import ScriptKinds.Proofs.Grammar.Advancing

namespace ScriptKinds.Grammar

open Reader

/-- From a place on, the readers of expressions, statements and patterns get
ahead. -/
structure Nonterminals.Live (input : Input) (total : Prop) (floor : Nat) (nt : Nonterminals) :
    Prop where
  expr : ∀ power, Advances input total anything floor (nt.expr power) strictly
  stmt : Advances input total anything floor nt.stmt strictly
  pattern : Advances input total continues floor nt.pattern strictly

variable {input : Input} {total : Prop} {now : Token → Prop} {floor : Nat} {nt : Nonterminals}

theorem Nonterminals.Live.later (h : nt.Live input total floor) :
    nt.Live input total (floor + 1) :=
  ⟨fun power => (h.expr power).later, h.stmt.later, h.pattern.later⟩

theorem continues_of_leads {form : LeadingForm} {token : Token} (h : input.Leads form token)
    (hterminated : input.Terminated) : continues token := by
  intro hkind
  rw [Input.Leads, hkind, hterminated.leading] at h
  cases h

theorem continues_of_kind {token : Token} {kind : TokenKind} (h : token.kind = kind)
    (hkind : kind ≠ .endOfInput) : continues token :=
  fun hends => hkind (h.symm.trans hends)

theorem continues_of_opening {token : Token}
    (h : [TokenKind.openCurly, TokenKind.openBracket].contains token.kind = true) :
    continues token := by
  intro hends
  rw [hends] at h
  exact absurd h (by decide)

section Bindings

theorem advances_readDefault (h : nt.Live input total floor) :
    Advances input total now floor (readDefault nt) weakly :=
  .read .skipIf fun _ => .optional (h.expr .comma)

theorem advances_readName (expectation : String) :
    Advances input total now floor (readName (failHere expectation)) strictly :=
  .move (.expectOr nofun) fun _ => .skip fun _ => .pure nofun

theorem advances_pattern (h : nt.Live input total floor)
    (hnow : ∀ token, now token →
      [TokenKind.openCurly, TokenKind.openBracket].contains token.kind = true) :
    Advances input total now floor nt.pattern strictly :=
  h.pattern.given_now fun token htoken => continues_of_opening (hnow token htoken)

theorem advances_readPatternElement (h : nt.Live input total floor) :
    Advances input total now floor (readPatternElement nt) strictly := by
  unfold readPatternElement
  refine .see fun token _ => .ite (fun hnested => ?_) fun _ => ?_
  · refine .move (advances_pattern h fun _ hsame => hsame ▸ hnested) fun inner => ?_
    exact .read (advances_readDefault h.later) fun _ => .pure nofun
  · refine .move (advances_readName _) fun name => ?_
    exact .read (advances_readDefault h.later) fun _ => .pure nofun

theorem advances_readArrayPatternItem (h : nt.Live input total floor) :
    Advances input total now floor (readArrayPatternItem nt) strictly := by
  unfold readArrayPatternItem
  refine .skipIf_else (by decide) (.pure nofun) (.read .skipIf fun _ => ?_)
  exact .move (advances_readPatternElement h) fun _ => .read .separator fun _ => .pure nofun

theorem advances_readPatternProperty (h : nt.Live input total floor) :
    Advances input total now floor (readPatternProperty nt) strictly := by
  unfold readPatternProperty
  refine .see fun key _ => .ite (fun hname => ?_) fun _ => .fail
  refine .take_name (fun _ hsame => hsame ▸ hname) fun _ => .read .skipIf fun renamed => ?_
  refine .ite (fun _ => (advances_readPatternElement h.later).loosen) fun _ => ?_
  refine .ite (fun _ => .skip fun id => ?_) fun _ => .failHere
  exact .read (advances_readDefault h.later) fun _ => .pure nofun

theorem advances_readObjectPatternItem (h : nt.Live input total floor) :
    Advances input total now floor (readObjectPatternItem nt) strictly := by
  unfold readObjectPatternItem
  refine .read .skipIf fun rest => .ite (fun _ => ?_) fun _ => ?_
  · exact .move (advances_readPatternElement h) fun _ => .read .separator fun _ => .pure nofun
  · exact .move (advances_readPatternProperty h) fun _ => .read .separator fun _ => .pure nofun

theorem advances_readPattern (h : nt.Live input total (floor + 1)) :
    Advances input total continues floor (readPattern nt) strictly := by
  unfold readPattern
  refine .take (fun _ => id) fun opening => .ite (fun _ => ?_) fun _ => ?_
  · refine .read (.collectUntil (advances_readObjectPatternItem h)) fun parts => ?_
    exact .read (.expect nofun) fun _ => .pure nofun
  · refine .read (.collectUntil (advances_readArrayPatternItem h)) fun parts => ?_
    exact .read (.expect nofun) fun _ => .pure nofun

theorem advances_readTarget (h : nt.Live input total floor) (expectation : String) :
    Advances input total now floor (readTarget nt expectation) strictly := by
  unfold readTarget
  refine .see fun token _ => .ite (fun hnested => ?_) fun _ => ?_
  · exact .move (advances_pattern h fun _ hsame => hsame ▸ hnested) fun _ => .pure nofun
  · exact .move (advances_readName _) fun _ => .pure nofun

theorem advances_readParameter (h : nt.Live input total floor) :
    Advances input total now floor (readParameter nt) strictly := by
  refine .skip fun start => .read .skipIf fun rest => .move (advances_readTarget h _) ?_
  refine fun target => .read (advances_readDefault h.later) fun default? => .skip fun span => ?_
  exact .read .separator fun _ => .pure nofun

theorem advances_readParameters (h : nt.Live input total (floor + 1)) :
    Advances input total now floor (readParameters nt) strictly := by
  refine .move (.expect nofun) fun _ => .read (.collectUntil (advances_readParameter h)) ?_
  exact fun _ => .read (.expect nofun) fun _ => .pure nofun

end Bindings

section Bodies

theorem advances_body (h : nt.Live input total floor) :
    Advances input total now floor (return [← nt.stmt]) strictly :=
  .move h.stmt.anywhere fun _ => .pure nofun

theorem advances_readBlock (h : nt.Live input total (floor + 1)) :
    Advances input total now floor (readBlock nt) strictly := by
  refine .move (.expect nofun) fun opening => .read (.collectUntil (advances_body h)) fun body => ?_
  exact .read (.expect nofun) fun _ => .skip fun id => .skip fun span => .pure nofun

theorem advances_readArrowBody (h : nt.Live input total floor) :
    Advances input total now floor (readArrowBody nt) strictly := by
  unfold readArrowBody
  refine .skip fun block => .ite (fun _ => advances_readBlock h.later) fun _ => ?_
  exact .move (h.expr .comma).anywhere fun value => .skip fun id => .pure nofun

theorem advances_readFunction (h : nt.Live input total (floor + 1)) (start : Nat)
    (name? : Option Identifier) :
    Advances input total now floor (readFunction nt start name?) strictly := by
  refine .move (advances_readParameters h) fun parameters => ?_
  exact .read (advances_readBlock h.later) fun body => .skip fun span => .pure nofun

theorem advances_readOptionalName :
    Advances input total now floor readOptionalName weakly := by
  unfold readOptionalName
  refine .skip fun present => .ite (fun _ => ?_) fun _ => .pure nofun
  exact .read .pass fun token => .skip fun id => .pure nofun

theorem advances_skipModifier (words : List String) :
    Advances input total now floor (skipModifier words) weakly := by
  unfold skipModifier
  refine .skip fun token => .skip fun next => .ite (fun _ => ?_) fun _ => .pure nofun
  exact .read .pass fun _ => .pure nofun

theorem advances_readMemberValue (h : nt.Live input total floor) (key : Token) :
    Advances input total now floor (readMemberValue nt key) weakly := by
  unfold readMemberValue
  refine .skip fun method => .ite (fun _ => ?_) fun _ => ?_
  · exact .read (advances_readFunction h.later _ none) fun _ => .pure nofun
  · exact .read (advances_readDefault h) fun _ => .read .expectSemicolon fun _ => .pure nofun

theorem advances_readMember (h : nt.Live input total floor) :
    Advances input total now floor (readMember nt) strictly := by
  unfold readMember
  refine .skipIf_else (by decide) (.pure nofun) (.skip fun start => ?_)
  refine .read (advances_skipModifier _) fun isStatic => .read (advances_skipModifier _) fun _ => ?_
  refine .see fun key _ => .ite (fun hname => ?_) fun _ => .fail
  refine .take_name (fun _ hsame => hsame ▸ hname) fun _ => ?_
  exact .read (advances_readMemberValue h.later key) fun _ => .skip fun span => .pure nofun

theorem advances_readClassTail (h : nt.Live input total floor) :
    Advances input total now floor (readClassTail nt) strictly := by
  refine .read .skipIf fun extended => .read (.optional (h.expr .unary)) fun superclass? => ?_
  refine .move (.expect nofun) fun _ => .read (.collectUntil (advances_readMember h.later)) ?_
  exact fun members => .read (.expect nofun) fun _ => .pure nofun

end Bodies

section Expressions

theorem advances_readPrimary : Advances input total continues floor readPrimary strictly := by
  refine .take (fun _ => id) fun token => ?_
  split
  · split
    · exact .pure nofun
    · exact .fail
  · exact .skip fun id => .pure nofun
  all_goals first | exact .pure nofun | exact .fail

theorem advances_checkAssignable {α : Type} {target : Expr} {next : PUnit → Reader α}
    {moved : α → Prop} (h : Advances input total now floor (next ()) moved) :
    Advances input total now floor (checkAssignable target >>= next) moved := by
  unfold checkAssignable
  split
  · exact .given h
  · exact .fail_bind

theorem advances_argument (h : nt.Live input total floor) :
    Advances input total now floor (do
      let argument ← nt.expr .comma
      separator .closeParen
      return [argument]) strictly :=
  .move (h.expr .comma).anywhere fun _ => .read .separator fun _ => .pure nofun

theorem advances_readArguments (h : nt.Live input total (floor + 1)) :
    Advances input total now floor (readArguments nt) strictly := by
  refine .move (.expect nofun) fun _ => .read (.collectUntil (advances_argument h)) ?_
  exact fun arguments => .read (.expect nofun) fun _ => .pure nofun

theorem advances_readElement (h : nt.Live input total floor) :
    Advances input total now floor (readElement nt) strictly := by
  unfold readElement
  refine .skipIf_else (by decide) (.pure nofun) (.move (h.expr .comma).anywhere fun element => ?_)
  exact .read .separator fun _ => .pure nofun

theorem advances_readArray (h : nt.Live input total (floor + 1)) :
    Advances input total continues floor (readArray nt) strictly := by
  refine .take (fun _ => id) fun opening => .read (.collectUntil (advances_readElement h)) ?_
  exact fun elements => .read (.expect nofun) fun _ => .skip fun span => .pure nofun

theorem advances_readSpread (h : nt.Live input total (floor + 1)) :
    Advances input total continues floor (readSpread nt) strictly :=
  .take (fun _ => id) fun _ => .read (h.expr .comma) fun _ => .pure nofun

theorem advances_readPropertyValue (h : nt.Live input total floor) (key : Token) :
    Advances input total now floor (readPropertyValue nt key) weakly := by
  unfold readPropertyValue
  refine .read .skipIf fun valued => .ite (fun _ => (h.expr .comma).loosen) fun _ => ?_
  refine .skip fun method => .ite (fun _ => ?_) fun _ => ?_
  · exact (advances_readFunction h.later _ none).loosen
  · exact .ite (fun _ => .skip fun id => .pure nofun) fun _ => .failHere

theorem advances_readPropertyEntry (h : nt.Live input total floor) :
    Advances input total now floor (readPropertyEntry nt) strictly := by
  unfold readPropertyEntry
  refine .see fun token _ => .ite (fun hrest => ?_) fun _ => ?_
  · have hcontinues : continues token := continues_of_kind (beq_iff_eq.mp hrest) nofun
    refine .move ((advances_readSpread h.later).given_now ?_) fun value => .pure nofun
    exact fun _ hsame => hsame ▸ hcontinues
  · refine .see fun key _ => .ite (fun hname => ?_) fun _ => .fail
    refine .take_name (fun _ hsame => hsame ▸ hname) fun _ => ?_
    exact .read (advances_readPropertyValue h.later key) fun _ => .pure nofun

theorem advances_readProperty (h : nt.Live input total floor) :
    Advances input total now floor (readProperty nt) strictly :=
  .move (advances_readPropertyEntry h) fun _ => .read .separator fun _ => .pure nofun

theorem advances_readObject (h : nt.Live input total (floor + 1)) :
    Advances input total continues floor (readObject nt) strictly := by
  refine .take (fun _ => id) fun opening => .read (.collectUntil (advances_readProperty h)) ?_
  exact fun properties => .read (.expect nofun) fun _ => .skip fun span => .pure nofun

theorem advances_readSubstitution (h : nt.Live input total floor)
    (read : List String × List Expr) :
    Advances input total now floor (readSubstitution nt read) movedAgain := by
  refine .move (h.expr .none).anywhere fun substitution => .skip fun part => ?_
  refine .ite (fun _ => .read .pass fun _ => .pure nofun) fun _ => ?_
  exact .ite (fun _ => .read .pass fun _ => .pure nofun) fun _ => .fail

theorem advances_readTemplate (h : nt.Live input total (floor + 1)) :
    Advances input total continues floor (readTemplate nt) strictly := by
  refine .take (fun _ => id) fun head => .read (.iterate (advances_readSubstitution h) _) ?_
  exact fun read => .skip fun span => .pure nofun

theorem advances_readRegex :
    Advances input total (input.Leads .regex) floor readRegex strictly := by
  intro hterminated before _ hlast hnow
  have hlt := TokenStream.lt_size hterminated.ends (continues_of_leads hnow hterminated)
  rw [readRegex_eq hlt]
  cases hparts : splitRegex (input.tokens.get before.place).text.toList with
  | some parts => exact .ok (Nat.le_succ _) hlt fun _ => Nat.lt_succ_self _
  | none => exact .error (fun _ => nofun) fun _ => ⟨before.place, hnow, hparts⟩

instance : Still atArrowParameters :=
  ⟨fun _ _ => ⟨_, _, rfl, rfl⟩⟩

theorem advances_readGroup (h : nt.Live input total (floor + 1)) :
    Advances input total continues floor (readGroup nt) strictly := by
  unfold readGroup
  refine .skip fun arrow => .ite (fun _ => .skip fun start => ?_) fun _ => ?_
  · refine .move (advances_readParameters h) fun parameters => .read (.expect nofun) fun _ => ?_
    exact .read (advances_readArrowBody h) fun body => .skip fun span => .pure nofun
  · refine .take (fun _ => id) fun _ => .read (h.expr .none) fun inner => ?_
    exact .read (.expect nofun) fun _ => .pure nofun

theorem advances_readUnary (h : nt.Live input total (floor + 1)) :
    Advances input total continues floor (readUnary nt) strictly :=
  .take (fun _ => id) fun _ => .read (h.expr .unary) fun _ => .pure nofun

theorem advances_readLeadingUpdate (h : nt.Live input total (floor + 1)) :
    Advances input total continues floor (readLeadingUpdate nt) strictly := by
  refine .take (fun _ => id) fun operator => .read (h.expr .unary) fun operand => ?_
  exact advances_checkAssignable (.pure nofun)

theorem advances_readNew (h : nt.Live input total (floor + 1)) :
    Advances input total continues floor (readNew nt) strictly := by
  refine .take (fun _ => id) fun word => .read (h.expr .call) fun callee => .skip fun called => ?_
  refine .ite (fun _ => ?_) fun _ => .given (.skip fun span => .pure nofun)
  exact .read (advances_readArguments h.later) fun arguments => .skip fun span => .pure nofun

theorem advances_readFunctionExpr (h : nt.Live input total (floor + 1)) :
    Advances input total continues floor (readFunctionExpr nt) strictly := by
  refine .take (fun _ => id) fun word => .read advances_readOptionalName fun name? => ?_
  exact (advances_readFunction h.later _ name?).loosen

theorem advances_readClassExpr (h : nt.Live input total (floor + 1)) :
    Advances input total continues floor (readClassExpr nt) strictly := by
  refine .take (fun _ => id) fun word => .read advances_readOptionalName fun name? => ?_
  exact .read (advances_readClassTail h) fun tail => .skip fun span => .pure nofun

theorem advances_readLeading (h : nt.Live input total (floor + 1)) (form : LeadingForm) :
    Advances input total (input.Leads form) floor (readLeading nt form) strictly := by
  refine .of_terminated fun hterminated => ?_
  have hany {reader : Reader Expr} (hreader : Advances input total continues floor reader strictly) :
      Advances input total (input.Leads form) floor reader strictly :=
    hreader.given_now fun _ hleads => continues_of_leads hleads hterminated
  cases form with
  | regex => exact advances_readRegex
  | primary => exact hany advances_readPrimary
  | template => exact hany (advances_readTemplate h)
  | array => exact hany (advances_readArray h)
  | object => exact hany (advances_readObject h)
  | function => exact hany (advances_readFunctionExpr h)
  | classDef => exact hany (advances_readClassExpr h)
  | unary => exact hany (advances_readUnary h)
  | spread => exact hany (advances_readSpread h)
  | update => exact hany (advances_readLeadingUpdate h)
  | group => exact hany (advances_readGroup h)
  | new => exact hany (advances_readNew h)

theorem advances_readSequence (h : nt.Live input total (floor + 1)) (left : Expr) :
    Advances input total continues floor (readSequence nt left) strictly := by
  refine .take (fun _ => id) fun _ => .read (.separated (h.expr .comma)) fun others => ?_
  exact .skip fun span => .pure nofun

theorem advances_readAssignment (h : nt.Live input total (floor + 1)) (left : Expr) :
    Advances input total continues floor (readAssignment nt left) strictly := by
  refine advances_checkAssignable (.take (fun _ => id) fun operator => ?_)
  exact .read (h.expr .comma) fun value => .pure nofun

theorem advances_readArrow (h : nt.Live input total (floor + 1)) (left : Expr) :
    Advances input total continues floor (readArrow nt left) strictly := by
  unfold readArrow
  split
  · refine .move (.expect nofun) fun _ => .read (advances_readArrowBody h) fun body => ?_
    exact .skip fun span => .pure nofun
  · exact .fail

theorem advances_readConditional (h : nt.Live input total (floor + 1)) (left : Expr) :
    Advances input total continues floor (readConditional nt left) strictly := by
  refine .take (fun _ => id) fun _ => .read (h.expr .comma) fun consequent => ?_
  exact .read (.expect nofun) fun _ => .read (h.expr .comma) fun alternate => .pure nofun

theorem advances_readBinary (h : nt.Live input total (floor + 1)) (power : Power) (left : Expr) :
    Advances input total continues floor (readBinary nt power left) strictly :=
  .take (fun _ => id) fun _ => .read (h.expr power) fun _ => .pure nofun

theorem advances_readTrailingUpdate (left : Expr) :
    Advances input total continues floor (readTrailingUpdate left) strictly :=
  advances_checkAssignable (.take (fun _ => id) fun _ => .pure nofun)

theorem advances_readCall (h : nt.Live input total (floor + 1)) (left : Expr) :
    Advances input total continues floor (readCall nt left) strictly :=
  .move (advances_readArguments h) fun _ => .skip fun _ => .pure nofun

theorem advances_readMemberAccess (left : Expr) :
    Advances input total continues floor (readMemberAccess left) strictly := by
  refine .take (fun _ => id) fun _ => .skip fun name => .ite (fun _ => ?_) fun _ => .fail
  exact .read .pass fun _ => .skip fun span => .pure nofun

theorem advances_readIndex (h : nt.Live input total (floor + 1)) (left : Expr) :
    Advances input total continues floor (readIndex nt left) strictly := by
  refine .take (fun _ => id) fun _ => .read (h.expr .none) fun index => ?_
  exact .read (.expect nofun) fun _ => .skip fun span => .pure nofun

theorem advances_readTrailing (h : nt.Live input total (floor + 1)) (left : Expr) (power : Power)
    (form : TrailingForm) :
    Advances input total continues floor (readTrailing nt left power form) strictly := by
  cases form with
  | sequence => exact advances_readSequence h left
  | assignment => exact advances_readAssignment h left
  | arrow => exact advances_readArrow h left
  | conditional => exact advances_readConditional h left
  | binary => exact advances_readBinary h power left
  | exponent => exact advances_readBinary h .multiplicative left
  | update => exact advances_readTrailingUpdate left
  | call => exact advances_readCall h left
  | member => exact advances_readMemberAccess left
  | index => exact advances_readIndex h left

theorem advances_readContinuation (h : nt.Live input total (floor + 1)) (power : Power)
    (left : Expr) :
    Advances input total now floor (readContinuation nt power left) movedAgain := by
  refine .of_terminated fun hterminated => .see_input fun token _ => .at_input ?_
  split
  · exact .pure nofun
  · rename_i form own htrailing
    split
    · exact .pure nofun
    · have hcontinues : continues token := by
        intro hkind
        rw [hkind, hterminated.trailing] at htrailing
        cases htrailing
      have hlarger : Advances input total (· = token) floor (readTrailing nt left own form)
          strictly :=
        (advances_readTrailing h left own form).given_now fun _ hsame => hsame ▸ hcontinues
      exact .move hlarger.to_input fun larger => .pure nofun

theorem advances_readExpr (h : nt.Live input total (floor + 1)) (power : Power) :
    Advances input total now floor (readExpr nt power) strictly := by
  refine .of_terminated fun hterminated => .see_input fun token _ => .at_input ?_
  split
  · exact .to_input .fail
  · rename_i form hleading
    have hfirst : Advances input total (· = token) floor (readLeading nt form) strictly :=
      (advances_readLeading h form).given_now fun _ hsame => hsame ▸ hleading
    refine .to_input (.move hfirst fun left => ?_)
    exact .iterate (advances_readContinuation h.later power) left

end Expressions

end ScriptKinds.Grammar
