import ScriptKinds.Proofs.Grammar.PrintedLists

namespace ScriptKinds

namespace Grammar

open Reader

variable {input : Input} {nt : Nonterminals}

section Forms

theorem leading_of_prefix : ∀ kind ∈ prefixOperators, script.leading? kind = some .unary := by
  decide

theorem leading_of_update : ∀ kind ∈ updateOperators, script.leading? kind = some .update := by
  decide

theorem trailing_of_update :
    ∀ kind ∈ updateOperators, script.trailing? kind = some (.update, .call) := by
  decide

theorem trailing_of_assignment :
    ∀ kind ∈ assignmentOperators, script.trailing? kind = some (.assignment, .assignment) := by
  decide

theorem isBinary_of_mem {token : Token} (h : token.kind ∈ binaryOperators) : token.IsBinary := by
  have hforms : ∀ kind ∈ binaryOperators,
      (script.trailing? kind).map Prod.fst ∈ [some .binary, some .exponent] := by decide
  have hform := hforms token.kind h
  cases htrailing : script.trailing? token.kind with
  | none => rw [htrailing] at hform; simp at hform
  | some continuation =>
      refine ⟨continuation.1, continuation.2, htrailing, ?_⟩
      rw [htrailing] at hform
      simpa using hform

theorem accepts_checkAssignable {target : Expr} {rest : List Token}
    (h : target.isAssignable = true) :
    (checkAssignable target).Accepts input [] rest fun _ => True := by
  rw [checkAssignable, if_pos h]
  exact accepts_pure trivial

variable {bound : Nat} (hscript : input.grammar = .script)
  (harrow : ∀ place, (input.tokens.get place).kind ≠ .arrow) (h : ReadsPrinted nt input bound)
  {tokens rest : List Token} {next : Token} {span : Span}

include h

theorem leads_unary {operator : Token} {operand : Expr}
    (hoperator : operator.kind ∈ prefixOperators) (hoperand : operand.Printable)
    (htokens : Writes (Expr.unary operator operand span).print tokens)
    (hlength : tokens.length < bound + 1) (hnext : Ends next) :
    Leads nt input tokens (next :: rest) (Expr.unary operator operand span).SameAs := by
  obtain ⟨token, others, rfl, htoken, hothers⟩ := writes_cons.mp htokens
  have hread := h.operand operand .unary others next rest hoperand hothers
    (Nat.lt_of_succ_lt_succ hlength) (hnext.stopsAt .unary)
  refine ⟨token, others, .unary, rfl, by rw [htoken.2.1]; exact leading_of_prefix _ hoperator, ?_⟩
  exact Accepts.pass (hread.conclude fun read hread => accepts_pure (.unary htoken hread))

theorem leads_update {operator : Token} {operand : Expr}
    (hoperator : operator.kind ∈ updateOperators) (hassignable : operand.isAssignable)
    (hoperand : operand.Printable)
    (htokens : Writes (Expr.update operator operand true span).print tokens)
    (hlength : tokens.length < bound + 1) (hnext : Ends next) :
    Leads nt input tokens (next :: rest) (Expr.update operator operand true span).SameAs := by
  obtain ⟨token, others, rfl, htoken, hothers⟩ := writes_cons.mp htokens
  have hread := h.operand operand .unary others next rest hoperand hothers
    (Nat.lt_of_succ_lt_succ hlength) (hnext.stopsAt .unary)
  refine ⟨token, others, .update, rfl, by rw [htoken.2.1]; exact leading_of_update _ hoperator, ?_⟩
  exact Accepts.pass (hread.conclude fun read hread =>
    (accepts_checkAssignable (hread.isAssignable.trans hassignable)).look fun _ _ =>
      accepts_pure (.update htoken hread))

theorem leads_new {callee : Expr} {arguments : List Expr} (hcallee : callee.Printable)
    (harguments : ∀ argument ∈ arguments, argument.unspread.Printable)
    (htokens : Writes (Expr.new callee arguments span).print tokens)
    (hlength : tokens.length < bound + 1) :
    Leads nt input tokens rest (Expr.new callee arguments span).SameAs := by
  obtain ⟨word, _, rfl, -, hword, hothers⟩ := writes_mark_cons htokens
  obtain ⟨calleeTokens, _, rfl, hcalleeTokens, hothers⟩ := writes_append.mp hothers
  obtain ⟨opening, listTokens, closing, rfl, -, hopening, hclosing, hlist⟩ :=
    writes_enclosed hothers
  simp only [List.length_cons, List.length_append, List.length_nil] at hlength
  have hstop : StopsAt .call opening := by
    intro form own htrailing
    rw [hopening] at htrailing
    cases htrailing
    exact Nat.le_refl _
  have hreadCallee := h.operand callee .call calleeTokens opening
    (listTokens ++ [closing] ++ rest) hcallee hcalleeTokens (by omega) hstop
  have hreadArguments :=
    accepts_readArguments h harguments hopening hclosing hlist (by omega) rest
  refine ⟨word, _, .new, rfl, by rw [hword]; rfl, ?_⟩
  refine Accepts.pass (hreadCallee.bind fun read hread => Accepts.if_at rfl hopening ?_)
  exact hreadArguments.conclude fun found hfound =>
    (accepts_spanFrom _).look fun _ _ => accepts_pure (.new hread hfound)

theorem leads_array {elements : List Expr}
    (helements : ∀ element ∈ elements, element.unspread.Printable)
    (htokens : Writes (Expr.array elements span).print tokens)
    (hlength : tokens.length < bound + 1) :
    Leads nt input tokens rest (Expr.array elements span).SameAs := by
  obtain ⟨opening, listTokens, closing, rfl, -, hopening, hclosing, hlist⟩ :=
    writes_enclosed htokens
  simp only [List.length_cons, List.length_append, List.length_nil] at hlength
  exact ⟨opening, _, .array, rfl, by rw [hopening]; rfl,
    accepts_readArray h helements hclosing hlist (by omega)⟩

theorem leads_object {properties : List Property}
    (hvalues : ∀ property ∈ properties, property.value.unspread.Printable)
    (hkeys : ∀ property ∈ properties, property.value.isSpread → property.key = "...")
    (htokens : Writes (Expr.object properties span).print tokens)
    (hlength : tokens.length < bound + 1) :
    Leads nt input tokens rest (Expr.object properties span).SameAs := by
  obtain ⟨opening, listTokens, closing, rfl, -, hopening, hclosing, hlist⟩ :=
    writes_enclosed htokens
  simp only [List.length_cons, List.length_append, List.length_nil] at hlength
  exact ⟨opening, _, .object, rfl, by rw [hopening]; rfl,
    accepts_readObject h hvalues hkeys hclosing hlist (by omega)⟩

theorem accepts_readSubstitution {substitution : Expr} {part : Token}
    (hsubstitution : substitution.Printable) (htokens : Writes substitution.printOperand tokens)
    (hlength : tokens.length < bound)
    (hpart : part.kind = .templateMiddle ∨ part.kind = .templateTail)
    (read : List String × List Expr) (rest : List Token) :
    (readSubstitution nt read).Accepts input (tokens ++ [part]) rest fun next =>
      ∃ found, substitution.SameAs found ∧
        next = if part.kind = .templateMiddle then .again (read.1 ++ [part.text], read.2 ++ [found])
          else .done (read.1 ++ [part.text], read.2 ++ [found]) := by
  have hends : Ends part := by rcases hpart with hpart | hpart <;> rw [Ends, hpart] <;> rfl
  have hread := h.operand substitution .none tokens part rest hsubstitution htokens hlength
    (hends.stopsAt .none)
  refine hread.bind fun found hfound => Accepts.see rfl ?_
  rcases hpart with hpart | hpart <;>
  · simp only [hpart, beq_self_eq_true, if_true]
    exact Accepts.pass (accepts_pure ⟨found, hfound, rfl⟩)

/-- The substitutions of a template with the texts behind them, in addition to
what has been read before. -/
theorem accepts_substitutions {substitutions : List Expr} {texts : List String}
    (hsome : substitutions ≠ []) (htexts : texts.length = substitutions.length)
    (hsubstitutions : ∀ substitution ∈ substitutions, substitution.Printable)
    (htokens : Writes (templateSigns (substitutions.map Expr.printOperand) texts) tokens)
    (hlength : tokens.length < bound) (turns : Nat) (hturns : tokens.length < turns)
    (read : List String × List Expr) :
    (repeatAtMost (readSubstitution nt) turns read).Accepts input tokens rest fun result =>
      ∃ found, List.Forall₂ Expr.SameAs substitutions found ∧
        result = (read.1 ++ texts, read.2 ++ found) := by
  obtain ⟨turns, rfl⟩ := Nat.exists_eq_succ_of_ne_zero (Nat.ne_of_gt (Nat.zero_lt_of_lt hturns))
  induction substitutions generalizing texts tokens turns read with
  | nil => exact absurd rfl hsome
  | cons substitution others ih =>
      obtain ⟨text, texts, rfl⟩ := List.exists_cons_of_length_eq_add_one htexts
      have hsubstitution := hsubstitutions substitution List.mem_cons_self
      cases others with
      | nil =>
          obtain rfl : texts = [] := List.eq_nil_of_length_eq_zero (Nat.succ.inj htexts)
          obtain ⟨first, _, rfl, hfirst, hpart⟩ := writes_append.mp htokens
          obtain ⟨part, rfl, -, hkind, htext⟩ := writes_singleton.mp hpart
          simp only [List.length_append, List.length_singleton] at hlength
          refine accepts_done ((accepts_readSubstitution h hsubstitution hfirst (by omega)
            (.inr hkind) read rest).mono fun next ⟨found, hfound, hnext⟩ => ?_)
          rw [hkind, if_neg (by decide), htext] at hnext
          exact ⟨_, hnext, [found], .cons hfound .nil, rfl⟩
      | cons second others =>
          obtain ⟨next, texts, rfl⟩ := List.exists_cons_of_length_eq_add_one (Nat.succ.inj htexts)
          obtain ⟨first, _, rfl, hfirst, hmore⟩ := writes_append.mp htokens
          obtain ⟨part, more, rfl, ⟨-, hkind, htext⟩, hmore⟩ := writes_cons.mp hmore
          simp only [List.length_append, List.length_cons] at hlength hturns
          obtain ⟨turns, rfl⟩ : ∃ before, turns = before + 1 := ⟨turns - 1, by omega⟩
          rw [show first ++ part :: more = (first ++ [part]) ++ more by simp]
          have hstep := accepts_readSubstitution h hsubstitution hfirst (by omega) (.inl hkind) read
            (more ++ rest)
          simp only [hkind, if_true] at hstep
          let Follows (reached : List String × List Expr) : Prop :=
            ∃ found, substitution.SameAs found ∧
              reached = (read.1 ++ [part.text], read.2 ++ [found])
          refine accepts_again (R := Follows) (hstep.mono fun next ⟨found, hfound, hnext⟩ =>
            ⟨_, hnext, found, hfound, rfl⟩) fun reached ⟨found, hfound, hreached⟩ => ?_
          have hrest := ih (List.cons_ne_nil _ _) (Nat.succ.inj htexts)
            (fun other hother => hsubstitutions other (List.mem_cons_of_mem _ hother)) hmore
            (by omega) reached turns (by omega)
          refine hrest.mono fun result ⟨others, hothers, hresult⟩ =>
            ⟨found :: others, .cons hfound hothers, ?_⟩
          rw [hresult, hreached, htext]
          simp

theorem leads_template {text : String} {texts : List String} {substitutions : List Expr}
    (hsome : substitutions ≠ []) (htexts : texts.length = substitutions.length)
    (hsubstitutions : ∀ substitution ∈ substitutions, substitution.Printable)
    (htokens : Writes (Expr.template (text :: texts) substitutions span).print tokens)
    (hlength : tokens.length < bound + 1) :
    Leads nt input tokens rest (Expr.template (text :: texts) substitutions span).SameAs := by
  obtain ⟨head, others, rfl, ⟨-, hkind, htext⟩, hothers⟩ := writes_cons.mp htokens
  rw [printEach_eq] at hothers
  refine ⟨head, others, .template, rfl, by rw [hkind]; rfl, ?_⟩
  refine Accepts.pass ?_
  refine Accepts.conclude (accepts_bound fun turns hturns => accepts_substitutions h hsome htexts
    hsubstitutions hothers (Nat.lt_of_succ_lt_succ hlength) turns hturns _)
    fun result ⟨found, hfound, hresult⟩ => ?_
  refine (accepts_spanFrom _).look fun _ _ => accepts_pure ?_
  rw [hresult, htext]
  exact .template hfound

theorem accepts_separated {operands : List Expr} (hsome : operands ≠ [])
    (hoperands : ∀ operand ∈ operands, operand.Printable)
    (htokens : Writes (commas (operands.map Expr.printOperand)) tokens)
    (hlength : tokens.length < bound) (hnext : Ends next) (turns : Nat)
    (hturns : tokens.length < turns) :
    (separatedAtMost (nt.expr .comma) turns).Accepts input tokens (next :: rest)
      (List.Forall₂ Expr.SameAs operands) := by
  obtain ⟨turns, rfl⟩ := Nat.exists_eq_succ_of_ne_zero (Nat.ne_of_gt (Nat.zero_lt_of_lt hturns))
  induction operands generalizing tokens turns with
  | nil => exact absurd rfl hsome
  | cons operand others ih =>
      have hoperand := hoperands operand List.mem_cons_self
      cases others with
      | nil =>
          have hcomma : next.kind ≠ .comma := by
            intro heq
            rw [Ends, heq] at hnext
            cases hnext
          exact (h.operand operand .comma tokens next rest hoperand htokens hlength
            (hnext.stopsAt .comma)).conclude fun read hread =>
              Accepts.unless_skipped rfl hcomma (accepts_pure (.cons hread .nil))
      | cons second others =>
          obtain ⟨first, _, rfl, hfirst, hmore⟩ := writes_append.mp htokens
          obtain ⟨comma, more, rfl, -, hcomma, hmore⟩ := writes_mark_cons hmore
          simp only [List.length_append, List.length_cons] at hlength hturns
          obtain ⟨turns, rfl⟩ : ∃ before, turns = before + 1 := ⟨turns - 1, by omega⟩
          have hfirstRead := h.operand operand .comma first comma (more ++ next :: rest) hoperand
            hfirst (by omega) (stopsAt_comma (hcomma ▸ List.mem_cons_self))
          have hothersRead := ih (List.cons_ne_nil _ _)
            (fun other hother => hoperands other (List.mem_cons_of_mem _ hother)) hmore (by omega)
            turns (by omega)
          exact hfirstRead.bind fun read hread => Accepts.if_skipped hcomma
            (hothersRead.conclude fun found hfound => accepts_pure (.cons hread hfound))

include hscript harrow

theorem accepts_binary {operator : Token} {left right : Expr}
    (hoperator : operator.kind ∈ binaryOperators) (hleft : left.Printable)
    (hright : right.Printable)
    (htokens : Writes (Expr.binary operator left right span).print tokens)
    (hlength : tokens.length < bound + 1) (hnext : Ends next) :
    (readExpr nt .none).Accepts input tokens (next :: rest)
      (Expr.binary operator left right span).SameAs := by
  obtain ⟨first, _, rfl, hfirst, hothers⟩ := writes_append.mp htokens
  obtain ⟨token, more, rfl, htoken, hmore⟩ := writes_cons.mp hothers
  simp only [List.length_append, List.length_cons] at hlength
  have hlead (rest : List Token) : Leads nt input first rest left.SameAs :=
    leads_operand h harrow hleft hfirst (by omega)
  have hbinary : token.IsBinary := isBinary_of_mem (htoken.2.1.symm ▸ hoperator)
  have hread (read : Expr) (hread : left.SameAs read) :
      (readBinary nt token.floor read).Accepts input (token :: more) (next :: rest)
        (Expr.binary operator left right span).SameAs :=
    Accepts.pass ((h.operand right token.floor more next rest hright hmore (by omega)
      (hnext.stopsAt token.floor)).conclude fun other hother =>
        accepts_pure (.binary htoken hread hother))
  have hown : ¬ token.power ≤ .none := Nat.not_le.mpr hbinary.none_lt
  rcases hbinary.cases with ⟨-, htrailing, -, hfloor⟩ | ⟨-, htrailing, -, hfloor⟩
  all_goals
    rw [hfloor] at hread
    exact (hlead _).accepts_trailing hscript htrailing hown htoken.1 hnext hread

theorem accepts_trailingUpdate {operator : Token} {operand : Expr}
    (hoperator : operator.kind ∈ updateOperators) (hassignable : operand.isAssignable)
    (hoperand : operand.Printable)
    (htokens : Writes (Expr.update operator operand false span).print tokens)
    (hlength : tokens.length < bound + 1) (hnext : Ends next) :
    (readExpr nt .none).Accepts input tokens (next :: rest)
      (Expr.update operator operand false span).SameAs := by
  obtain ⟨first, _, rfl, hfirst, hothers⟩ := writes_append.mp htokens
  obtain ⟨token, rfl, htoken⟩ := writes_singleton.mp hothers
  simp only [List.length_append, List.length_singleton] at hlength
  have htrailing : script.trailing? token.kind = some (.update, .call) := by
    rw [htoken.2.1]; exact trailing_of_update _ hoperator
  refine (leads_operand h harrow hoperand hfirst (by omega)).accepts_trailing hscript htrailing
    (by decide) htoken.1 hnext fun read hread => ?_
  exact (accepts_checkAssignable (hread.isAssignable.trans hassignable)).look fun _ _ =>
    Accepts.pass (accepts_pure (.update htoken hread))

theorem accepts_assignment {operator : Token} {target value : Expr}
    (hoperator : operator.kind ∈ assignmentOperators) (hassignable : target.isAssignable)
    (htarget : target.Printable) (hvalue : value.Printable)
    (htokens : Writes (Expr.assignment operator target value span).print tokens)
    (hlength : tokens.length < bound + 1) (hnext : Ends next) :
    (readExpr nt .none).Accepts input tokens (next :: rest)
      (Expr.assignment operator target value span).SameAs := by
  obtain ⟨first, _, rfl, hfirst, hothers⟩ := writes_append.mp htokens
  obtain ⟨token, more, rfl, htoken, hmore⟩ := writes_cons.mp hothers
  simp only [List.length_append, List.length_cons] at hlength
  have htrailing : script.trailing? token.kind = some (.assignment, .assignment) := by
    rw [htoken.2.1]; exact trailing_of_assignment _ hoperator
  refine (leads_operand h harrow htarget hfirst (by omega)).accepts_trailing hscript htrailing
    (by decide) htoken.1 hnext fun read hread => ?_
  have hvalueRead := h.operand value .comma more next rest hvalue hmore (by omega)
    (hnext.stopsAt .comma)
  exact (accepts_checkAssignable (hread.isAssignable.trans hassignable)).look fun _ _ =>
    Accepts.pass (hvalueRead.conclude fun other hother =>
      accepts_pure (.assignment htoken hread hother))

theorem accepts_call {callee : Expr} {arguments : List Expr} (hcallee : callee.Printable)
    (harguments : ∀ argument ∈ arguments, argument.unspread.Printable)
    (htokens : Writes (Expr.call callee arguments span).print tokens)
    (hlength : tokens.length < bound + 1) (hnext : Ends next) :
    (readExpr nt .none).Accepts input tokens (next :: rest)
      (Expr.call callee arguments span).SameAs := by
  obtain ⟨first, _, rfl, hfirst, hothers⟩ := writes_append.mp htokens
  obtain ⟨opening, listTokens, closing, rfl, hline, hopening, hclosing, hlist⟩ :=
    writes_enclosed hothers
  simp only [List.length_append, List.length_cons, List.length_nil] at hlength
  have htrailing : script.trailing? opening.kind = some (.call, .call) := by rw [hopening]; rfl
  refine (leads_operand h harrow hcallee hfirst (by omega)).accepts_trailing hscript htrailing
    (by decide) hline hnext fun read hread => ?_
  exact (accepts_readArguments h harguments hopening hclosing hlist (by omega)
    (next :: rest)).conclude fun found hfound =>
      (accepts_spanFrom _).look fun _ _ => accepts_pure (.call hread hfound)

theorem accepts_member {object : Expr} {name : String} (hobject : object.Printable)
    (htokens : Writes (Expr.member object name span).print tokens)
    (hlength : tokens.length < bound + 1) (hnext : Ends next) :
    (readExpr nt .none).Accepts input tokens (next :: rest)
      (Expr.member object name span).SameAs := by
  obtain ⟨first, _, rfl, hfirst, hothers⟩ := writes_append.mp htokens
  obtain ⟨dot, _, rfl, hline, hdot, hothers⟩ := writes_mark_cons hothers
  obtain ⟨word, rfl, -, hkind, htext⟩ := writes_singleton.mp hothers
  simp only [List.length_append, List.length_cons, List.length_nil] at hlength
  have htrailing : script.trailing? dot.kind = some (.member, .member) := by rw [hdot]; rfl
  have hproperty : word.isPropertyName = true := isPropertyName_of_ofWord (htext ▸ hkind)
  refine (leads_operand h harrow hobject hfirst (by omega)).accepts_trailing hscript htrailing
    (by decide) hline hnext fun read hread => ?_
  refine Accepts.pass (Accepts.see rfl ?_)
  rw [hproperty, if_pos rfl, htext]
  exact Accepts.pass ((accepts_spanFrom _).look fun _ _ => accepts_pure (.member hread))

theorem accepts_index {object index : Expr} (hobject : object.Printable)
    (hindex : index.Printable) (htokens : Writes (Expr.index object index span).print tokens)
    (hlength : tokens.length < bound + 1) (hnext : Ends next) :
    (readExpr nt .none).Accepts input tokens (next :: rest)
      (Expr.index object index span).SameAs := by
  obtain ⟨first, _, rfl, hfirst, hothers⟩ := writes_append.mp htokens
  obtain ⟨opening, inner, closing, rfl, hline, hopening, hclosing, hinner⟩ :=
    writes_enclosed hothers
  simp only [List.length_append, List.length_cons, List.length_nil] at hlength
  have htrailing : script.trailing? opening.kind = some (.index, .member) := by rw [hopening]; rfl
  have hends : Ends closing := by rw [Ends, hclosing]; rfl
  refine (leads_operand h harrow hobject hfirst (by omega)).accepts_trailing hscript htrailing
    (by decide) hline hnext fun read hread => ?_
  have hindexRead := h.operand index .none inner closing (next :: rest) hindex hinner (by omega)
    (hends.stopsAt .none)
  exact Accepts.pass (hindexRead.bind fun other hother => Accepts.pass_expected hclosing
    ((accepts_spanFrom _).look fun _ _ => accepts_pure (.index hread hother)))

theorem accepts_conditional {test consequent alternate : Expr} (htest : test.Printable)
    (hconsequent : consequent.Printable) (halternate : alternate.Printable)
    (htokens : Writes (Expr.conditional test consequent alternate span).print tokens)
    (hlength : tokens.length < bound + 1) (hnext : Ends next) :
    (readExpr nt .none).Accepts input tokens (next :: rest)
      (Expr.conditional test consequent alternate span).SameAs := by
  obtain ⟨first, _, rfl, hfirst, hothers⟩ := writes_append.mp htokens
  obtain ⟨question, _, rfl, hline, hquestion, hothers⟩ := writes_mark_cons hothers
  obtain ⟨second, _, rfl, hsecond, hothers⟩ := writes_append.mp hothers
  obtain ⟨colon, third, rfl, -, hcolon, hthird⟩ := writes_mark_cons hothers
  simp only [List.length_append, List.length_cons] at hlength
  have htrailing : script.trailing? question.kind = some (.conditional, .conditional) := by
    rw [hquestion]; rfl
  have hends : Ends colon := by rw [Ends, hcolon]; rfl
  refine (leads_operand h harrow htest hfirst (by omega)).accepts_trailing hscript htrailing
    (by decide) hline hnext fun read hread => ?_
  have hsecondRead := h.operand consequent .comma second colon (third ++ next :: rest) hconsequent
    hsecond (by omega) (hends.stopsAt .comma)
  have hthirdRead := h.operand alternate .comma third next rest halternate hthird (by omega)
    (hnext.stopsAt .comma)
  exact Accepts.pass (hsecondRead.bind fun other hother => Accepts.pass_expected hcolon
    (hthirdRead.conclude fun third hthird => accepts_pure (.conditional hread hother hthird)))

theorem accepts_sequence {operands : List Expr} (hmany : 2 ≤ operands.length)
    (hoperands : ∀ operand ∈ operands, operand.Printable)
    (htokens : Writes (Expr.sequence operands span).print tokens)
    (hlength : tokens.length < bound + 1) (hnext : Ends next) :
    (readExpr nt .none).Accepts input tokens (next :: rest)
      (Expr.sequence operands span).SameAs := by
  obtain ⟨operand, second, others, rfl⟩ : ∃ operand second others,
      operands = operand :: second :: others := by
    match operands, hmany with
    | operand :: second :: others, _ => exact ⟨operand, second, others, rfl⟩
  rw [Expr.print, printEach_eq] at htokens
  obtain ⟨first, _, rfl, hfirst, hmore⟩ := writes_append.mp htokens
  obtain ⟨comma, more, rfl, hline, hcomma, hmore⟩ := writes_mark_cons hmore
  simp only [List.length_append, List.length_cons] at hlength
  have htrailing : script.trailing? comma.kind = some (.sequence, .comma) := by rw [hcomma]; rfl
  refine (leads_operand h harrow (hoperands operand List.mem_cons_self) hfirst
    (by omega)).accepts_trailing hscript htrailing (by decide) hline hnext fun read hread => ?_
  have hothers : (separated (nt.expr .comma)).Accepts input more (next :: rest)
      (List.Forall₂ Expr.SameAs (second :: others)) :=
    accepts_bound fun turns hturns => accepts_separated h (List.cons_ne_nil second others)
      (fun other hother => hoperands other (List.mem_cons_of_mem _ hother)) hmore (by omega) hnext
      turns hturns
  exact Accepts.pass (hothers.conclude fun found hfound =>
    (accepts_spanFrom _).look fun _ _ => accepts_pure (.sequence (.cons hread hfound)))

theorem accepts_print {expr : Expr} (hexpr : expr.Printable) (htokens : Writes expr.print tokens)
    (hlength : tokens.length < bound + 1) (hnext : Ends next) :
    (readExpr nt .none).Accepts input tokens (next :: rest) expr.SameAs := by
  have hstop := hnext.stopsAt .none
  cases hexpr with
  | number text hvalue =>
      exact (leads_leaf (.number text hvalue) rfl htokens).accepts hscript hstop
  | string => exact (leads_leaf .string rfl htokens).accepts hscript hstop
  | boolean => exact (leads_leaf .boolean rfl htokens).accepts hscript hstop
  | null => exact (leads_leaf .null rfl htokens).accepts hscript hstop
  | symbol => exact (leads_leaf .symbol rfl htokens).accepts hscript hstop
  | regex hflags => exact (leads_leaf (.regex hflags) rfl htokens).accepts hscript hstop
  | array helements => exact (leads_array h helements htokens hlength).accepts hscript hstop
  | object hvalues hkeys =>
      exact (leads_object h hvalues hkeys htokens hlength).accepts hscript hstop
  | binary hoperator hleft hright =>
      exact accepts_binary hscript harrow h hoperator hleft hright htokens hlength hnext
  | unary hoperator hoperand =>
      exact (leads_unary h hoperator hoperand htokens hlength hnext).accepts hscript hstop
  | @update _ _ leading _ hoperator hassignable hoperand =>
      cases leading with
      | true =>
          exact (leads_update h hoperator hassignable hoperand htokens hlength
            hnext).accepts hscript hstop
      | false =>
          exact accepts_trailingUpdate hscript harrow h hoperator hassignable hoperand htokens
            hlength hnext
  | assignment hoperator hassignable htarget hvalue =>
      exact accepts_assignment hscript harrow h hoperator hassignable htarget hvalue htokens hlength
        hnext
  | call hcallee harguments =>
      exact accepts_call hscript harrow h hcallee harguments htokens hlength hnext
  | member hobject => exact accepts_member hscript harrow h hobject htokens hlength hnext
  | index hobject hindex =>
      exact accepts_index hscript harrow h hobject hindex htokens hlength hnext
  | new hcallee harguments =>
      exact (leads_new h hcallee harguments htokens hlength).accepts hscript hstop
  | conditional htest hconsequent halternate =>
      exact accepts_conditional hscript harrow h htest hconsequent halternate htokens hlength hnext
  | template hsome htexts hsubstitutions =>
      exact (leads_template h hsome htexts hsubstitutions htokens hlength).accepts hscript hstop
  | sequence hmany hoperands =>
      exact accepts_sequence hscript harrow h hmany hoperands htokens hlength hnext

end Forms

end Grammar

end ScriptKinds
