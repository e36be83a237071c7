import ScriptKinds.Proofs.Grammar.RegexParts
import ScriptKinds.Proofs.Grammar.Grouping
import ScriptKinds.Proofs.Grammar.Printing

namespace ScriptKinds

/-- Leaves out numbers and spans, those of operators included. -/
def Relabeling.bare : Relabeling :=
  { Relabeling.unplaced with
    operator := fun operator => ⟨operator.kind, operator.text, ⟨0, 0⟩, false⟩ }

/-- Whether an expression is another one up to numbers and spans. -/
def Expr.SameAs (expr read : Expr) : Prop :=
  read.relabel .bare = expr.relabel .bare

namespace Expr

theorem isAssignable_relabel (r : Relabeling) (expr : Expr) :
    (expr.relabel r).isAssignable = expr.isAssignable := by
  cases expr <;> rfl

theorem SameAs.isAssignable {expr read : Expr} (h : expr.SameAs read) :
    read.isAssignable = expr.isAssignable := by
  rw [← isAssignable_relabel .bare read, h, isAssignable_relabel]

end Expr

/-- Whether a property is another one up to numbers and spans. -/
def Property.SameAs (property read : Property) : Prop :=
  read.key = property.key ∧ property.value.SameAs read.value

theorem Token.bare_of_fits {operator token : Token} (h : operator.sign.Fits token) :
    Relabeling.bare.operator token = Relabeling.bare.operator operator := by
  obtain ⟨-, hkind, htext⟩ := h
  simp only [Relabeling.bare, hkind, htext]

theorem relabelExprs_of_sameAs {exprs found : List Expr}
    (h : List.Forall₂ Expr.SameAs exprs found) :
    relabelExprs .bare found = relabelExprs .bare exprs := by
  induction h with
  | nil => rfl
  | cons hread _ ih => rw [relabelExprs, relabelExprs, hread, ih]

theorem relabelProperties_of_sameAs {properties found : List Property}
    (h : List.Forall₂ Property.SameAs properties found) :
    relabelProperties .bare found = relabelProperties .bare properties := by
  induction h with
  | nil => rfl
  | @cons property read _ _ hread _ ih =>
      obtain ⟨key, value⟩ := property
      obtain ⟨_, found⟩ := read
      obtain ⟨rfl, hvalue⟩ := hread
      rw [relabelProperties, relabelProperties, hvalue, ih]

namespace Expr.SameAs

variable {expr read other otherRead third thirdRead : Expr} {exprs found : List Expr}
  {operator token : Token} {span spanRead : Span}

theorem array (h : List.Forall₂ SameAs exprs found) :
    (Expr.array exprs span).SameAs (.array found spanRead) :=
  congrArg (Expr.array · _) (relabelExprs_of_sameAs h)

theorem object {properties found : List Property}
    (h : List.Forall₂ Property.SameAs properties found) :
    (Expr.object properties span).SameAs (.object found spanRead) :=
  congrArg (Expr.object · _) (relabelProperties_of_sameAs h)

theorem binary (htoken : operator.sign.Fits token) (h : expr.SameAs read)
    (hother : other.SameAs otherRead) :
    (Expr.binary operator expr other span).SameAs (.binary token read otherRead spanRead) := by
  rw [SameAs, relabel, relabel, Token.bare_of_fits htoken, h, hother]
  rfl

theorem unary (htoken : operator.sign.Fits token) (h : expr.SameAs read) :
    (Expr.unary operator expr span).SameAs (.unary token read spanRead) := by
  rw [SameAs, relabel, relabel, Token.bare_of_fits htoken, h]
  rfl

theorem update {leading : Bool} (htoken : operator.sign.Fits token) (h : expr.SameAs read) :
    (Expr.update operator expr leading span).SameAs (.update token read leading spanRead) := by
  rw [SameAs, relabel, relabel, Token.bare_of_fits htoken, h]
  rfl

theorem assignment (htoken : operator.sign.Fits token) (h : expr.SameAs read)
    (hother : other.SameAs otherRead) :
    (Expr.assignment operator expr other span).SameAs
      (.assignment token read otherRead spanRead) := by
  rw [SameAs, relabel, relabel, Token.bare_of_fits htoken, h, hother]
  rfl

theorem call (h : expr.SameAs read) (hfound : List.Forall₂ SameAs exprs found) :
    (Expr.call expr exprs span).SameAs (.call read found spanRead) := by
  rw [SameAs, relabel, relabel, h, relabelExprs_of_sameAs hfound]
  rfl

theorem new (h : expr.SameAs read) (hfound : List.Forall₂ SameAs exprs found) :
    (Expr.new expr exprs span).SameAs (.new read found spanRead) := by
  rw [SameAs, relabel, relabel, h, relabelExprs_of_sameAs hfound]
  rfl

theorem member {name : String} (h : expr.SameAs read) :
    (Expr.member expr name span).SameAs (.member read name spanRead) :=
  congrArg (Expr.member · _ _) h

theorem index (h : expr.SameAs read) (hother : other.SameAs otherRead) :
    (Expr.index expr other span).SameAs (.index read otherRead spanRead) :=
  congrArg₂ (Expr.index · · _) h hother

theorem conditional (h : expr.SameAs read) (hother : other.SameAs otherRead)
    (hthird : third.SameAs thirdRead) :
    (Expr.conditional expr other third span).SameAs
      (.conditional read otherRead thirdRead spanRead) := by
  rw [SameAs, relabel, relabel, h, hother, hthird]
  rfl

theorem template {texts : List String} (h : List.Forall₂ SameAs exprs found) :
    (Expr.template texts exprs span).SameAs (.template texts found spanRead) :=
  congrArg (Expr.template _ · _) (relabelExprs_of_sameAs h)

theorem sequence (h : List.Forall₂ SameAs exprs found) :
    (Expr.sequence exprs span).SameAs (.sequence found spanRead) :=
  congrArg (Expr.sequence · _) (relabelExprs_of_sameAs h)

theorem spread (h : expr.SameAs read) : (Expr.spread expr span).SameAs (.spread read spanRead) :=
  congrArg (Expr.spread · _) h

end Expr.SameAs

namespace Grammar

open Reader

variable {input : Input} {nt : Nonterminals}

/-- Whether a token ends every expression in front of it. -/
def Ends (token : Token) : Prop :=
  script.trailing? token.kind = none

theorem Ends.stopsAt {token : Token} (h : Ends token) (power : Power) : StopsAt power token := by
  intro form own htrailing
  rw [h] at htrailing
  cases htrailing

/-- Whether printed expressions that have fewer tokens than a bound are read as
what they are by the expressions that nest in others. -/
structure ReadsPrinted (nt : Nonterminals) (input : Input) (bound : Nat) : Prop where
  expr : ∀ (expr : Expr) (tokens : List Token) (next : Token) (rest : List Token),
    expr.Printable → Writes expr.print tokens → tokens.length < bound → Ends next →
      (nt.expr .none).Accepts input tokens (next :: rest) expr.SameAs
  operand : ∀ (expr : Expr) (power : Power) (tokens : List Token) (next : Token)
    (rest : List Token), expr.Printable → Writes expr.printOperand tokens →
      tokens.length < bound → StopsAt power next →
        (nt.expr power).Accepts input tokens (next :: rest) expr.SameAs
  item : ∀ (item : Expr) (tokens : List Token) (next : Token) (rest : List Token),
    item.unspread.Printable → Writes item.printOperand tokens → tokens.length < bound →
      StopsAt .comma next → (nt.expr .comma).Accepts input tokens (next :: rest) item.SameAs

/-- Where some tokens begin an expression, they are accepted by the reader that
the first of them starts. -/
def Leads (nt : Nonterminals) (input : Input) (tokens rest : List Token) (P : Expr → Prop) : Prop :=
  ∃ token others form, tokens = token :: others ∧ script.leading? token.kind = some form ∧
    (readLeading nt form).Accepts input tokens rest P

section Readers

variable (hscript : input.grammar = .script)

include hscript

theorem Leads.accepts {power : Power} {tokens rest : List Token} {next : Token} {P : Expr → Prop}
    (h : Leads nt input tokens (next :: rest) P) (hstop : StopsAt power next) :
    (readExpr nt power).Accepts input tokens (next :: rest) P := by
  obtain ⟨token, others, form, rfl, hleading, hread⟩ := h
  rw [← List.append_nil (token :: others)]
  refine accepts_readExpr hscript hleading hread fun left hleft bound hbound => ?_
  obtain ⟨turns, rfl⟩ := Nat.exists_eq_succ_of_ne_zero (Nat.ne_of_gt hbound)
  exact accepts_done ((accepts_stop hscript hstop).mono fun again hagain => ⟨left, hagain, hleft⟩)

theorem Leads.accepts_trailing {tokens more rest : List Token} {token next : Token}
    {form : TrailingForm} {own : Power} {P R : Expr → Prop}
    (h : Leads nt input tokens (token :: more ++ next :: rest) R)
    (htrailing : script.trailing? token.kind = some (form, own)) (hown : ¬ own ≤ .none)
    (hline : token.newlineBefore = false) (hnext : Ends next)
    (htrail : ∀ left, R left →
      (readTrailing nt left own form).Accepts input (token :: more) (next :: rest) P) :
    (readExpr nt .none).Accepts input (tokens ++ token :: more) (next :: rest) P := by
  obtain ⟨first, others, leading, rfl, hleading, hread⟩ := h
  refine accepts_readExpr hscript hleading hread fun left hleft bound hbound => ?_
  obtain ⟨turns, rfl⟩ : ∃ turns, bound = turns + 2 := ⟨bound - 2, by
    rw [List.length_cons] at hbound; omega⟩
  have hline : startsLineUpdate token = false := by rw [startsLineUpdate, hline, Bool.false_and]
  rw [← List.append_nil (token :: more)]
  refine accepts_again (accepts_continue hscript htrailing hown hline (htrail left hleft))
    fun reached hreached => ?_
  exact accepts_done ((accepts_stop hscript (hnext.stopsAt .none)).mono
    fun again hagain => ⟨reached, hagain, hreached⟩)

end Readers

section Groups

variable (harrow : ∀ place, (input.tokens.get place).kind ≠ .arrow)

include harrow

theorem arrowFollows_eq_false (bound depth place : Nat) :
    input.tokens.arrowFollows bound depth place = false := by
  induction bound generalizing depth place with
  | zero => rfl
  | succ bound ih =>
      rw [TokenStream.arrowFollows]
      split
      · exact ih _ _
      · split
        · exact beq_eq_false_iff_ne.mpr (harrow _)
        · exact ih _ _
      · rfl
      · exact ih _ _

theorem accepts_atArrowParameters {rest : List Token} :
    atArrowParameters.Accepts input [] rest (· = false) :=
  fun _ progress hahead => ⟨_, progress, rfl, hahead, arrowFollows_eq_false harrow _ _ _⟩

theorem accepts_readGroup {opening closing : Token} {tokens rest : List Token} {P : Expr → Prop}
    (hclosing : closing.kind = .closeParen)
    (h : (nt.expr .none).Accepts input tokens (closing :: rest) P) :
    (readGroup nt).Accepts input (opening :: (tokens ++ [closing])) rest P := by
  refine (accepts_atArrowParameters harrow).look fun found hfound => ?_
  rw [hfound, if_neg Bool.false_ne_true]
  exact Accepts.pass (h.bind fun inner hinner =>
    Accepts.pass_expected hclosing (accepts_pure hinner))

end Groups

section Leaves

variable {token : Token} {rest : List Token}

theorem leads_primary (hleading : script.leading? token.kind = some .primary) {P : Expr → Prop}
    (h : readPrimary.Accepts input [token] rest P) : Leads nt input [token] rest P :=
  ⟨token, [], .primary, rfl, hleading, h⟩

theorem leads_number {value : Binary64} {span : Span} (h : (Sign.number value).Fits token) :
    Leads nt input [token] rest (Expr.number value span).SameAs := by
  obtain ⟨-, hkind, hvalue⟩ := h
  refine leads_primary (by rw [hkind]; rfl) (Accepts.pass ?_)
  simp only [hkind, hvalue]
  exact accepts_pure rfl

theorem leads_regex {pattern flags : String} {span : Span} (hflags : '/' ∉ flags.toList)
    (h : (Sign.word .regex ("/" ++ pattern ++ "/" ++ flags)).Fits token) :
    Leads nt input [token] rest (Expr.regex pattern flags span).SameAs := by
  obtain ⟨-, hkind, htext⟩ := h
  refine ⟨token, [], .regex, rfl, by rw [hkind]; rfl, Accepts.pass ?_⟩
  have hliteral : token.text.toList = '/' :: (pattern.toList ++ '/' :: flags.toList) := by
    rw [htext]
    simp
  simp only [hliteral, splitRegex_literal hflags, String.ofList_toList]
  exact accepts_pure rfl

theorem leads_leaf {expr : Expr} {tokens : List Token} (hexpr : expr.Printable)
    (hbare : expr.standsBare) (htokens : Writes expr.print tokens) :
    Leads nt input tokens rest expr.SameAs := by
  cases hexpr with
  | number text h =>
      obtain ⟨token, rfl, htoken⟩ := writes_singleton.mp htokens
      exact leads_number htoken
  | @string value template _ =>
      obtain ⟨token, rfl, -, hkind, htext⟩ := writes_singleton.mp htokens
      refine leads_primary (by cases template <;> rw [hkind] <;> rfl) (Accepts.pass ?_)
      cases template <;>
      · simp only [hkind, htext]
        exact accepts_pure rfl
  | @boolean value _ =>
      obtain ⟨token, rfl, -, (hkind : token.kind = if value then .trueWord else .falseWord)⟩ :=
        writes_singleton.mp htokens
      refine leads_primary (by cases value <;> rw [hkind] <;> rfl) (Accepts.pass ?_)
      cases value <;>
      · simp only [hkind]
        exact accepts_pure rfl
  | null =>
      obtain ⟨token, rfl, -, (hkind : token.kind = .nullWord)⟩ := writes_singleton.mp htokens
      refine leads_primary (by rw [hkind]; rfl) (Accepts.pass ?_)
      simp only [hkind]
      exact accepts_pure rfl
  | symbol =>
      obtain ⟨token, rfl, -, hkind, htext⟩ := writes_singleton.mp htokens
      refine leads_primary (by rw [hkind]; rfl) (Accepts.pass ?_)
      simp only [hkind, htext]
      exact accepts_freshId.look fun id _ => accepts_pure rfl
  | regex hflags =>
      obtain ⟨token, rfl, htoken⟩ := writes_singleton.mp htokens
      exact leads_regex hflags htoken
  | _ => cases hbare

end Leaves

section Operands

variable {bound : Nat} (h : ReadsPrinted nt input bound)

include h

theorem leads_operand (harrow : ∀ place, (input.tokens.get place).kind ≠ .arrow) {expr : Expr}
    {tokens rest : List Token} (hexpr : expr.Printable) (htokens : Writes expr.printOperand tokens)
    (hlength : tokens.length < bound + 1) : Leads nt input tokens rest expr.SameAs := by
  cases hbare : expr.standsBare with
  | true =>
      rw [expr.printOperand_of_bare hbare] at htokens
      exact leads_leaf hexpr hbare htokens
  | false =>
      rw [expr.printOperand_of_not_bare hbare] at htokens
      obtain ⟨opening, inner, closing, rfl, -, hopening, hclosing, hinner⟩ :=
        writes_enclosed htokens
      have hends : Ends closing := by rw [Ends, hclosing]; rfl
      have hinnerLength : inner.length < bound := by
        simp only [List.length_cons, List.length_append, List.length_nil] at hlength; omega
      exact ⟨opening, _, .group, rfl, by rw [hopening]; rfl, accepts_readGroup harrow hclosing
        (h.expr expr inner closing rest hexpr hinner hinnerLength hends)⟩

end Operands

end Grammar

end ScriptKinds
