import ScriptKinds.Proofs.Grammar.Derivation
import ScriptKinds.Proofs.Grammar.ExpressionProgress

namespace ScriptKinds.Grammar

open Reader Constituent

/-- A token with which a pattern starts. -/
def OpensPattern (token : Token) : Prop :=
  token.kind = .openCurly ∨ token.kind = .openBracket

/-- What has been read of a pattern. -/
abbrev patternParts (parts : PatternParts) (derived : List Constituent) : Prop :=
  Scattered parts.elements parts.nestedDefaults derived

/-- The readers of expressions, statements and patterns derive what they read. -/
structure Nonterminals.Deriving (input : Input) (nt : Nonterminals) : Prop where
  expr : ∀ power, Derives input anything [] (nt.expr power) (oneNode .expr)
  stmt : Derives input anything [] nt.stmt (oneNode .stmt)
  pattern : Derives input OpensPattern [] nt.pattern fun parts =>
    Production (.target (.pattern parts.elements parts.nestedDefaults))

variable {input : Input} {nt : Nonterminals} {now : Token → Prop} {held : List Constituent}

section Bindings

theorem Production.scattered {elements : List PatternElement} {nestedDefaults : List Expr}
    {parts : List Constituent} (h : Production (.target (.pattern elements nestedDefaults)) parts) :
    Scattered elements nestedDefaults parts := by
  cases h with
  | @pattern _ closing _ _ _ hopening hinner =>
      have hclosing : Scattered [] [] [.token closing] := .token .nil
      simpa using Scattered.token (hinner.append hclosing)

theorem Introduced.scattered {default? : Option Expr} {parts : List Constituent}
    (h : Introduced .assignment .expr default? parts) : Scattered [] default?.toList parts := by
  cases h with
  | absent => exact .nil
  | present hkind => exact .token (.nested .nil)

theorem derives_readDefault {α : Type} {good : α → List Constituent → Prop}
    {next : Option Expr → Reader α} (h : nt.Deriving input)
    (hnext : ∀ default? parts, Introduced .assignment .expr default? parts →
      Derives input anything (held ++ parts) (next default?) good) :
    Derives input now held (readDefault nt >>= next) good := by
  unfold readDefault
  rw [bind_assoc]
  exact .introduced (h.expr .comma) hnext

theorem derives_readName {α : Type} {good : α → List Constituent → Prop} {expectation : String}
    {next : Identifier × Span → Reader α}
    (hnext : ∀ token id, token.kind = .identifier →
      Derives input anything (held ++ [Constituent.token token])
        (next (⟨token.text, id⟩, token.span)) good) :
    Derives input now held (readName (failHere expectation) >>= next) good := by
  unfold readName
  simp only [bind_assoc, pure_bind]
  exact .expect fun token hkind => .skip fun id => hnext token id hkind

theorem opensPattern {token : Token} (h : [.openCurly, .openBracket].contains token.kind = true) :
    OpensPattern token := by
  simpa [OpensPattern] using h

theorem derives_readPatternElement (h : nt.Deriving input) :
    Derives input now [] (readPatternElement nt) patternParts := by
  unfold readPatternElement
  refine .see fun token _ => .ite (fun hopens => ?_) (fun _ => ?_)
  · refine .read (h.pattern.of_seen (opensPattern hopens)) fun inner parts hparts => ?_
    refine derives_readDefault h fun default? default hdefault => .pure ?_
    simpa [patternParts] using hparts.scattered.append hdefault.scattered
  · refine derives_readName fun token id hkind => ?_
    refine derives_readDefault h fun default? default hdefault => ?_
    exact .wrap (.element hkind hdefault) (.pure (.element .nil))

/-- What has been read of some parts of a pattern. -/
abbrev patternItems (items : List PatternParts) : List Constituent → Prop :=
  patternParts (.join items)

theorem patternItems_append {items more : List PatternParts} {parts others : List Constituent}
    (hitems : patternItems items parts) (hmore : patternItems more others) :
    patternItems (items ++ more) (parts ++ others) := by
  simpa [patternItems, patternParts, PatternParts.join] using hitems.append hmore

theorem patternItems_single {part : PatternParts} {parts others : List Constituent}
    (hpart : patternParts part parts) (hothers : Listed (OfKind .comma) [] others) :
    patternItems [part] (parts ++ others) := by
  simpa [patternItems, patternParts, PatternParts.join] using hpart.append hothers.scattered

theorem derives_readArrayPatternItem (h : nt.Deriving input) :
    Derives input now [] (readArrayPatternItem nt) patternItems := by
  unfold readArrayPatternItem
  refine .skipIf_else (fun token _ => .pure (.token .nil)) ?_
  refine .skipIf fun rest dots hdots => ?_
  refine .read (derives_readPatternElement h) fun part parts hpart => ?_
  refine .separator fun comma hcomma => .pure (patternItems_single ?_ hcomma)
  cases hdots with
  | absent => exact hpart
  | present => exact .token hpart

theorem derives_readPatternProperty (h : nt.Deriving input) :
    Derives input now [] (readPatternProperty nt) patternParts := by
  unfold readPatternProperty
  refine .see fun key _ => .ite (fun _ => .take_seen ?_) (fun _ => .fail)
  refine .skipIf_else (fun colon _ => ?_) (.ite (fun hkind => ?_) fun _ => .failHere)
  · exact .rest (derives_readPatternElement h) fun _ _ hparts => .token (.token hparts)
  · refine .skip fun id => derives_readDefault h fun default? default hdefault => ?_
    exact .wrap (.element (beq_iff_eq.mp hkind) hdefault) (.pure (.element .nil))

theorem derives_readObjectPatternItem (h : nt.Deriving input) :
    Derives input now [] (readObjectPatternItem nt) patternItems := by
  unfold readObjectPatternItem
  refine .skipIf_else (fun dots _ => ?_) ?_
  · refine .read (derives_readPatternElement h) fun part parts hpart => ?_
    exact .separator fun comma hcomma => .pure (patternItems_single (.token hpart) hcomma)
  · refine .read (derives_readPatternProperty h) fun part parts hpart => ?_
    exact .separator fun comma hcomma => .pure (patternItems_single hpart hcomma)

theorem derives_readPattern (h : nt.Deriving input) :
    Derives input OpensPattern [] (readPattern nt) fun parts =>
      Production (.target (.pattern parts.elements parts.nestedDefaults)) := by
  unfold readPattern
  refine .take fun opening hopens => .ite (fun hkind => ?_) (fun hkind => ?_)
  · refine .read (.collectUntil .nil patternItems_append (derives_readObjectPatternItem h)) ?_
    refine fun parts inner hinner => .expect fun closing hclosing => .pure ?_
    exact .pattern (.inl ⟨beq_iff_eq.mp hkind, hclosing⟩) hinner
  · refine .read (.collectUntil .nil patternItems_append (derives_readArrayPatternItem h)) ?_
    refine fun parts inner hinner => .expect fun closing hclosing => .pure ?_
    refine .pattern (.inr ⟨hopens.resolve_left ?_, hclosing⟩) hinner
    simpa using hkind

theorem derives_readTarget (h : nt.Deriving input) (expectation : String) :
    Derives input now [] (readTarget nt expectation) (oneNode .target) := by
  unfold readTarget
  refine .see fun token _ => .ite (fun hopens => ?_) (fun _ => ?_)
  · refine .read (h.pattern.of_seen (opensPattern hopens)) fun parts derived hderived => ?_
    exact .node hderived
  · exact derives_readName fun token id hkind => .node (.name hkind)

theorem derives_readParameter (h : nt.Deriving input) :
    Derives input now [] (readParameter nt) (listOf (OfKind .comma) .parameter) := by
  refine .skip fun start => .skipIf fun rest dots hdots => ?_
  refine .node_then (derives_readTarget h _) fun target => ?_
  refine derives_readDefault h fun default? default hdefault => .skip fun span => ?_
  have hparameter : Production (.parameter ⟨target, default?, rest, span⟩) _ :=
    .parameter hdots hdefault
  exact .wrap hparameter <| .separator fun comma hcomma => .pure (.node hcomma)

theorem derives_readParameters (h : nt.Deriving input) :
    Derives input now [] (readParameters nt) Parameters := by
  refine .expect fun _ hopening => .read (.list (derives_readParameter h)) fun _ _ hinner => ?_
  exact .expect fun _ hclosing => .pure (.intro hopening hinner hclosing)

end Bindings

section Bodies

theorem derives_readBlock (h : nt.Deriving input) :
    Derives input now [] (readBlock nt) (oneNode .block) := by
  refine .expect fun _ hopening => .read (.run (.turn h.stmt)) fun body _ hbody => ?_
  refine .expect fun _ hclosing => .skip fun id => .skip fun span => ?_
  exact .node (hbody ▸ .block hopening hclosing)

theorem derives_readArrowBody (h : nt.Deriving input) :
    Derives input now [] (readArrowBody nt) fun body parts =>
      ∃ part, ArrowBody body part ∧ parts = [part] := by
  unfold readArrowBody
  refine .skip fun block => .ite (fun _ => ?_) (fun _ => ?_)
  · exact .rest (derives_readBlock h) fun body _ hbody => ⟨_, .block, hbody⟩
  · refine .node_then (h.expr .comma).anywhere fun value => .skip fun id => ?_
    exact .wrap_bare .result (.wrap_bare (.body id) (.pure ⟨_, .expr, rfl⟩))

theorem derives_readFunction (h : nt.Deriving input) (start : Nat) (name? : Option Identifier)
    (hfunction : ∀ parameters body span inner, Parameters parameters inner →
      Production (.expr (.function name? parameters body false span))
        (held ++ inner ++ [Constituent.node (.block body)])) :
    Derives input now held (readFunction nt start name?) (oneNode .expr) := by
  refine .read (derives_readParameters h) fun parameters inner hparameters => ?_
  refine .node_then (derives_readBlock h) fun body => .skip fun span => ?_
  exact .node (hfunction _ _ _ _ hparameters)

theorem derives_readMethod (h : nt.Deriving input) (start : Nat) :
    Derives input now [] (readFunction nt start none) (oneNode .expr) :=
  derives_readFunction h start none fun _ _ _ _ hparameters => .method hparameters

theorem derives_readOptionalName {α : Type} {good : α → List Constituent → Prop}
    {next : Option Identifier → Reader α}
    (hnext : ∀ name? parts, Named name? parts →
      Derives input anything (held ++ parts) (next name?) good) :
    Derives input now held (readOptionalName >>= next) good := by
  have hname : Derives input now [] readOptionalName Named := by
    unfold readOptionalName
    refine .see fun token _ => .ite (fun hkind => .take_seen ?_) fun _ => .pure .absent
    exact .skip fun id => .pure (.present (beq_iff_eq.mp hkind))
  exact .read hname hnext

theorem derives_skipModifier {α : Type} {good : α → List Constituent → Prop}
    {words : List String} {next : Bool → Reader α}
    (hnext : ∀ present parts, Marked (Modifier words) present parts →
      Derives input anything (held ++ parts) (next present) good) :
    Derives input now held (skipModifier words >>= next) good := by
  have hmodifier : Derives input now [] (skipModifier words) (Marked (Modifier words)) := by
    unfold skipModifier
    refine .see fun token _ => .skip fun name => .ite (fun hword => .take_seen ?_) fun _ => ?_
    · exact .pure (.present (Bool.and_eq_true_iff.mp hword).1)
    · exact .pure .absent
  exact .read hmodifier hnext

theorem derives_readMemberValue (h : nt.Deriving input) (key : Token) :
    Derives input now [] (readMemberValue nt key) MemberValue := by
  unfold readMemberValue
  refine .see fun token _ => .ite (fun hopening => .ahead ?_) (fun _ => ?_)
  · refine .node_then (derives_readMethod h _) fun value => .pure ?_
    exact .method (beq_iff_eq.mp hopening)
  · refine derives_readDefault h fun value? value hvalue => ?_
    exact .terminator fun ending hending => .pure (.field hvalue hending)

theorem derives_readMember (h : nt.Deriving input) :
    Derives input now [] (readMember nt) (listOf (OfKind .semicolon) .member) := by
  unfold readMember
  refine .skipIf_else (fun semicolon hkind => .pure (.mark hkind .nil)) ?_
  refine .skip fun start => derives_skipModifier fun isStatic static hstatic => ?_
  refine derives_skipModifier fun isAccessor accessor haccessor => ?_
  refine .see fun key _ => .ite (fun hkey => .take_seen ?_) fun _ => .fail
  refine .read (derives_readMemberValue h key) fun value? value hvalue => .skip fun span => ?_
  exact .single (.member hstatic haccessor hkey hvalue)

theorem derives_readClassTail (h : nt.Deriving input) :
    Derives input now [] (readClassTail nt) fun tail => ClassTail tail.1 tail.2 := by
  refine .introduced (h.expr .unary) fun superclass? superclass hsuperclass => ?_
  refine .expect fun _ hopening => .read (.list (derives_readMember h)) fun _ _ hinner => ?_
  refine .expect fun _ hclosing => .pure ?_
  simpa using ClassTail.intro hsuperclass (.intro hopening hinner hclosing)

end Bodies

section Expressions

theorem derives_readPrimary : Derives input (Starts .primary) [] readPrimary (oneNode .expr) := by
  refine .take fun token _ => ?_
  split
  · split
    · exact .node (.number ‹_› ‹_›)
    · exact .fail
  · exact .skip fun id => .node (.symbol ‹_›)
  · exact .node (.string ‹_›)
  · exact .node (.plainTemplate ‹_›)
  · exact .node (.boolean ‹_›)
  · exact .node (.boolean ‹_›)
  · exact .node (.null ‹_›)
  · exact .fail

theorem derives_readArguments (h : nt.Deriving input) :
    Derives input now [] (readArguments nt) Arguments := by
  have hitem : Derives input anything [] (do
      let argument ← nt.expr .comma
      separator .closeParen
      return [argument]) (listOf (OfKind .comma) .expr) :=
    .node_then (h.expr .comma) fun argument => .separator fun comma hcomma => .pure (.node hcomma)
  refine .expect fun _ hopening => .read (.list hitem) fun _ _ hinner => ?_
  exact .expect fun _ hclosing => .pure (.intro hopening hinner hclosing)

theorem derives_readElement (h : nt.Deriving input) :
    Derives input now [] (readElement nt) (listOf (OfKind .comma) .expr) := by
  unfold readElement
  refine .skipIf_else (fun hole hkind => .pure (.mark hkind .nil)) ?_
  refine .node_then (h.expr .comma) fun element => .separator fun comma hcomma => ?_
  exact .pure (.node hcomma)

theorem derives_readArray (h : nt.Deriving input) :
    Derives input (Starts .array) [] (readArray nt) (oneNode .expr) := by
  refine .take fun opening hopening => .read (.list (derives_readElement h)) fun _ _ hinner => ?_
  refine .expect fun _ hclosing => .skip fun span => .node (.array ?_)
  exact .intro (hopening.kind_eq (by decide)) hinner hclosing

theorem derives_readSpread (h : nt.Deriving input) :
    Derives input (OfKind .ellipsis) [] (readSpread nt) (oneNode .expr) :=
  .take fun _ hdots => .node_then (h.expr .comma).anywhere fun _ => .node (.spread hdots)

theorem derives_readPropertyValue (h : nt.Deriving input) (key : Token) :
    Derives input now [.token key] (readPropertyValue nt key) fun value =>
      Production (.property ⟨key.text, value⟩) := by
  unfold readPropertyValue
  refine .skipIf_else (fun colon hcolon => ?_) (.see fun token _ => .ite (fun hopening => ?_) ?_)
  · exact .rest (h.expr .comma) fun value _ hvalue => hvalue ▸ .valueProperty hcolon
  · refine .ahead (.rest (derives_readMethod h _) fun value _ hvalue => hvalue ▸ ?_)
    exact .methodProperty (beq_iff_eq.mp hopening)
  · refine fun _ => .ite (fun hkind => .skip fun id => ?_) fun _ => .failHere
    have hsymbol : Production (.expr (.symbol ⟨key.text, id⟩ key.span)) _ :=
      .symbol (beq_iff_eq.mp hkind)
    exact .wrap hsymbol (.pure .nameProperty)

theorem derives_readPropertyEntry (h : nt.Deriving input) :
    Derives input now [] (readPropertyEntry nt) (oneNode .property) := by
  unfold readPropertyEntry
  refine .see fun token _ => .ite (fun hdots => ?_) (fun _ => ?_)
  · have hkind : OfKind .ellipsis token := beq_iff_eq.mp hdots
    exact .node_then ((derives_readSpread h).of_seen hkind) fun value => .node .spreadProperty
  · refine .see fun key _ => .ite (fun _ => .take_seen ?_) fun _ => .fail
    exact .seq (derives_readPropertyValue h key) fun value parts hparts => .node hparts

theorem derives_readProperty (h : nt.Deriving input) :
    Derives input now [] (readProperty nt) (listOf (OfKind .comma) .property) :=
  .node_then (derives_readPropertyEntry h) fun _ => .separator fun _ hcomma => .pure (.node hcomma)

theorem derives_readObject (h : nt.Deriving input) :
    Derives input (Starts .object) [] (readObject nt) (oneNode .expr) := by
  refine .take fun opening hopening => .read (.list (derives_readProperty h)) fun _ _ hinner => ?_
  refine .expect fun _ hclosing => .skip fun span => .node (.object ?_)
  exact .intro (hopening.kind_eq (by decide)) hinner hclosing

/-- What has been read of a template behind its head. -/
def templateItems (read : List String × List Expr) (parts : List Constituent) : Prop :=
  ∃ head inner, head.kind = .templateHead ∧ parts = .token head :: inner ∧
    listOf (OfKind .templateMiddle) .expr read.2 inner

theorem derives_readSubstitution (h : nt.Deriving input) (read : List String × List Expr)
    (hread : templateItems read held) :
    Derives input now held (readSubstitution nt read) (Derives.againGood templateItems
      fun read parts => ∃ tail inner, tail.kind = .templateTail ∧ templateItems read inner ∧
        parts = inner ++ [Constituent.token tail]) := by
  obtain ⟨head, inner, hhead, rfl, hinner⟩ := hread
  refine .node_then (h.expr .none).anywhere fun substitution => .see fun part _ => ?_
  have hnext (others : List Constituent) (hothers : Listed (OfKind .templateMiddle) [] others) :
      templateItems (read.1 ++ [part.text], read.2 ++ [substitution])
        (.token head :: inner ++ [Constituent.node (.expr substitution)] ++ others) := by
    refine ⟨head, inner ++ (Constituent.node (.expr substitution) :: others), hhead, by simp, ?_⟩
    rw [listOf, List.map_append]
    exact hinner.append (.node hothers)
  refine .ite (fun hkind => .take_seen (.pure ?_)) (fun _ => .ite (fun hkind => ?_) fun _ => .fail)
  · exact hnext _ (.mark (beq_iff_eq.mp hkind) .nil)
  · refine .take_seen (.pure ⟨part, _, beq_iff_eq.mp hkind, ?_, rfl⟩)
    simpa using hnext [] .nil

theorem derives_readTemplate (h : nt.Deriving input) :
    Derives input (Starts .template) [] (readTemplate nt) (oneNode .expr) := by
  refine .take fun head hhead => ?_
  have hstart : templateItems ([head.text], []) [.token head] :=
    ⟨head, [], hhead.kind_eq (by decide), rfl, .nil⟩
  refine .seq (.iterate (fun read held => derives_readSubstitution h read) hstart) ?_
  rintro read _ ⟨tail, _, htail, ⟨head, inner, hhead, rfl, hinner⟩, rfl⟩
  exact .skip fun span => .node (.template hhead hinner htail)

theorem derives_readRegex : Derives input (Starts .regex) [] readRegex (oneNode .expr) := by
  refine .take fun token htoken => ?_
  split
  · exact .node (.regex (htoken.kind_eq (by decide)))
  · exact .breakOff

theorem derives_readGroup (h : nt.Deriving input) :
    Derives input (Starts .group) [] (readGroup nt) (oneNode .expr) := by
  unfold readGroup
  -- With an arrow behind them the parentheses are those of parameters.
  refine .skip fun arrow => .ite (fun _ => ?_) (fun _ => ?_)
  · refine .skip fun start => .read (derives_readParameters h) fun parameters inner hinner => ?_
    refine .expect fun token hkind => .read (derives_readArrowBody h) ?_
    rintro body _ ⟨last, hbody, rfl⟩
    exact .skip fun span => .node_of (.arrow hinner hkind hbody) (by simp)
  · refine .take fun opening hopening => .node_then (h.expr .none) fun inner => ?_
    refine .expect fun closing hclosing => .node (.group ?_)
    exact .intro (hopening.kind_eq (by decide)) hclosing

theorem derives_readUnary (h : nt.Deriving input) :
    Derives input (Starts .unary) [] (readUnary nt) (oneNode .expr) :=
  .take fun _ hoperator => .node_then (h.expr .unary) fun _ => .node (.unary hoperator)

theorem derives_checkAssignable {α : Type} {good : α → List Constituent → Prop} {target : Expr}
    {next : Unit → Reader α} (hnext : Derives input now held (next ()) good) :
    Derives input now held (checkAssignable target >>= next) good := by
  unfold checkAssignable
  split
  · exact .given hnext
  · exact .fail_bind

theorem derives_readLeadingUpdate (h : nt.Deriving input) :
    Derives input (Starts .update) [] (readLeadingUpdate nt) (oneNode .expr) :=
  .take fun _ hoperator => .node_then (h.expr .unary) fun _ =>
    derives_checkAssignable (.node (.leadingUpdate hoperator))

theorem derives_readNew (h : nt.Deriving input) :
    Derives input (Starts .new) [] (readNew nt) (oneNode .expr) := by
  refine .take fun word hword => .node_then (h.expr .call) fun callee => .skip fun called => ?_
  refine .ite (fun _ => ?_) (fun _ => ?_)
  · refine .read (derives_readArguments h) fun arguments inner hinner => .skip fun span => ?_
    exact .node (.new (hword.kind_eq (by decide)) hinner)
  · exact .given (.skip fun span => .node (.plainNew (hword.kind_eq (by decide))))

theorem derives_readFunctionExpr (h : nt.Deriving input) :
    Derives input (Starts .function) [] (readFunctionExpr nt) (oneNode .expr) := by
  refine .take fun word hword => derives_readOptionalName fun name? name hname => ?_
  exact derives_readFunction h _ name? fun _ _ _ _ hinner => .functionExpr hword hname hinner

theorem derives_readClassExpr (h : nt.Deriving input) :
    Derives input (Starts .classDef) [] (readClassExpr nt) (oneNode .expr) := by
  refine .take fun word hword => derives_readOptionalName fun name? name hname => ?_
  refine .read (derives_readClassTail h) fun tail parts htail => .skip fun span => ?_
  exact .node (.classExpr hword hname htail)

theorem derives_readLeading (h : nt.Deriving input) (form : LeadingForm) :
    Derives input (Starts form) [] (readLeading nt form) (oneNode .expr) := by
  cases form with
  | primary => exact derives_readPrimary
  | template => exact derives_readTemplate h
  | regex => exact derives_readRegex
  | array => exact derives_readArray h
  | object => exact derives_readObject h
  | function => exact derives_readFunctionExpr h
  | classDef => exact derives_readClassExpr h
  | unary => exact derives_readUnary h
  | spread => exact (derives_readSpread h).given_now fun _ hstarts => hstarts.kind_eq (by decide)
  | update => exact derives_readLeadingUpdate h
  | group => exact derives_readGroup h
  | new => exact derives_readNew h

theorem derives_readSequence (h : nt.Deriving input) (left : Expr) :
    Derives input (Continues .sequence) [.node (.expr left)] (readSequence nt left)
      (oneNode .expr) := by
  refine .take fun comma hcomma => .read (.separated (h.expr .comma)) fun others inner hinner => ?_
  exact .skip fun span => .node (.sequence (hcomma.kind_eq (by decide)) hinner)

theorem derives_readAssignment (h : nt.Deriving input) (left : Expr) :
    Derives input (Continues .assignment) [.node (.expr left)] (readAssignment nt left)
      (oneNode .expr) :=
  derives_checkAssignable <| .take fun _ hoperator => .node_then (h.expr .comma) fun _ =>
    .node (.assignment hoperator)

theorem derives_readArrow (h : nt.Deriving input) (left : Expr) :
    Derives input now [.node (.expr left)] (readArrow nt left) (oneNode .expr) := by
  unfold readArrow
  split
  · refine .wrap_bare .parameter (.expect fun token hkind => .read (derives_readArrowBody h) ?_)
    rintro body _ ⟨last, hbody, rfl⟩
    exact .skip fun span => .node (.nameArrow hkind hbody)
  · exact .fail

theorem derives_readConditional (h : nt.Deriving input) (left : Expr) :
    Derives input (Continues .conditional) [.node (.expr left)] (readConditional nt left)
      (oneNode .expr) := by
  refine .take fun question hquestion => .node_then (h.expr .comma) fun consequent => ?_
  refine .expect fun colon hcolon => .node_then (h.expr .comma) fun alternate => ?_
  exact .node (.conditional (hquestion.kind_eq (by decide)) hcolon)

theorem derives_readBinary (h : nt.Deriving input) (power : Power) (left : Expr) :
    Derives input (fun token => Continues .binary token ∨ Continues .exponent token)
      [.node (.expr left)] (readBinary nt power left) (oneNode .expr) :=
  .take fun _ hoperator => .node_then (h.expr power) fun _ => .node (.binary hoperator)

theorem Continues.update_kind {token : Token} (h : Continues .update token) :
    token.kind = .plusPlus ∨ token.kind = .minusMinus := by
  have hall : ∀ kind ∈ TokenKind.all, (Grammar.script.trailing? kind).map Prod.fst = some .update →
      kind = .plusPlus ∨ kind = .minusMinus := by decide
  exact hall _ (TokenKind.mem_all _) h

theorem derives_readTrailingUpdate (left : Expr) :
    Derives input (fun token => Continues .update token ∧ startsLineUpdate token = false)
      [.node (.expr left)] (readTrailingUpdate left) (oneNode .expr) := by
  refine derives_checkAssignable <| .take fun operator hoperator => .node ?_
  obtain ⟨hform, hline⟩ := hoperator
  refine .trailingUpdate hform ?_
  rcases hform.update_kind with hkind | hkind <;> simpa [startsLineUpdate, hkind] using hline

theorem derives_readCall (h : nt.Deriving input) (left : Expr) :
    Derives input now [.node (.expr left)] (readCall nt left) (oneNode .expr) := by
  refine .read (derives_readArguments h).anywhere fun arguments inner hinner => ?_
  exact .skip fun span => .node (.call hinner)

theorem derives_readMemberAccess (left : Expr) :
    Derives input (Continues .member) [.node (.expr left)] (readMemberAccess left)
      (oneNode .expr) := by
  refine .take fun dot hdot => .see fun name _ => .ite (fun hname => .take_seen ?_) fun _ => .fail
  exact .skip fun span => .node (.access (hdot.kind_eq (by decide)) hname)

theorem derives_readIndex (h : nt.Deriving input) (left : Expr) :
    Derives input (Continues .index) [.node (.expr left)] (readIndex nt left) (oneNode .expr) := by
  refine .take fun opening hopening => .node_then (h.expr .none) fun index => ?_
  refine .expect fun closing hclosing => .skip fun span => .node ?_
  exact .index (hopening.kind_eq (by decide)) hclosing

theorem derives_readTrailing (h : nt.Deriving input) (left : Expr) (power : Power)
    (form : TrailingForm) :
    Derives input (fun token => Continues form token ∧ startsLineUpdate token = false)
      [.node (.expr left)] (readTrailing nt left power form) (oneNode .expr) := by
  have hleft {reader : Reader Expr} {other : Token → Prop} (hother : ∀ token,
      Continues form token → other token)
      (hreader : Derives input other [.node (.expr left)] reader (oneNode .expr)) :
      Derives input (fun token => Continues form token ∧ startsLineUpdate token = false)
        [.node (.expr left)] reader (oneNode .expr) :=
    hreader.given_now fun token htoken => hother token htoken.1
  cases form with
  | sequence => exact hleft (fun _ => id) (derives_readSequence h left)
  | assignment => exact hleft (fun _ => id) (derives_readAssignment h left)
  | arrow => exact derives_readArrow h left
  | conditional => exact hleft (fun _ => id) (derives_readConditional h left)
  | binary => exact hleft (fun _ => .inl) (derives_readBinary h power left)
  | exponent => exact hleft (fun _ => .inr) (derives_readBinary h .multiplicative left)
  | update => exact derives_readTrailingUpdate left
  | call => exact derives_readCall h left
  | member => exact hleft (fun _ => id) (derives_readMemberAccess left)
  | index => exact hleft (fun _ => id) (derives_readIndex h left)

theorem derives_readContinuation (h : nt.Deriving input) (power : Power) (left : Expr)
    (hheld : held = [.node (.expr left)]) :
    Derives input now held (readContinuation nt power left)
      (Derives.againGood (oneNode .expr) (oneNode .expr)) := by
  subst hheld
  refine .of_script fun hscript => .see_input fun token _ => .at_input ?_
  rw [hscript]
  split
  · exact .pure rfl
  · rename_i form own hform
    split
    · exact .pure rfl
    · rename_i hbinds
      have htoken : Continues form token ∧ startsLineUpdate token = false := by
        refine ⟨by simp [Continues, hform], ?_⟩
        simpa using (not_or.mp hbinds).2
      refine .seq (.to_input ((derives_readTrailing h left own form).of_seen htoken)) ?_
      exact fun next parts hparts => .pure hparts

theorem derives_readExpr (h : nt.Deriving input) (power : Power) :
    Derives input now [] (readExpr nt power) (oneNode .expr) := by
  refine .of_script fun hscript => .see_input fun token _ => .at_input ?_
  rw [hscript]
  split
  · exact .to_input .fail
  · rename_i form hform
    refine .seq (.to_input ((derives_readLeading h form).of_seen hform)) fun left parts hleft => ?_
    exact .to_input (.iterate (fun left held => derives_readContinuation h power left) hleft)

end Expressions

end ScriptKinds.Grammar
