import ScriptKinds.Proofs.Grammar.PrintedForms

namespace ScriptKinds

namespace Grammar

open Reader

variable {input : Input} {nt : Nonterminals}

theorem readsPrinted_succ (hscript : input.grammar = .script)
    (harrow : ∀ place, (input.tokens.get place).kind ≠ .arrow) {bound : Nat} {stmt : Reader Stmt}
    {pattern : Reader PatternParts} (h : ReadsPrinted nt input bound) :
    ReadsPrinted ⟨readExpr nt, stmt, pattern⟩ input (bound + 1) where
  expr _ _ _ _ hexpr htokens hlength hnext :=
    accepts_print hscript harrow h hexpr htokens hlength hnext
  operand _ _ _ _ _ hexpr htokens hlength hstop :=
    (leads_operand h harrow hexpr htokens hlength).accepts hscript hstop
  item item tokens next rest hitem htokens hlength hstop := by
    rcases Expr.printable_or_spread hitem with hexpr | ⟨argument, span, rfl, hargument⟩
    · exact (leads_operand h harrow hexpr htokens hlength).accepts hscript hstop
    · obtain ⟨dots, others, rfl, -, hdots, hothers⟩ := writes_mark_cons htokens
      have hlead : Leads nt input (dots :: others) (next :: rest)
          (Expr.spread argument span).SameAs :=
        ⟨dots, others, .spread, rfl, by rw [hdots]; rfl,
          accepts_readSpread h hargument hothers (Nat.lt_of_succ_lt_succ hlength) hstop⟩
      exact hlead.accepts hscript hstop

theorem readsPrinted_nonterminals (hscript : input.grammar = .script)
    (harrow : ∀ place, (input.tokens.get place).kind ≠ .arrow) (depth : Nat) :
    ReadsPrinted (nonterminals depth) input depth := by
  induction depth with
  | zero =>
      exact ⟨fun _ _ _ _ _ _ h => absurd h (Nat.not_lt_zero _),
        fun _ _ _ _ _ _ _ h => absurd h (Nat.not_lt_zero _),
        fun _ _ _ _ _ _ h => absurd h (Nat.not_lt_zero _)⟩
  | succ depth ih => exact readsPrinted_succ hscript harrow ih

theorem knot_expr (power : Power) :
    knot (fun nt => nt.expr power) input =
      (nonterminals (depthOf input.tokens)).expr power input :=
  rfl

theorem accepts_knot (hscript : input.grammar = .script)
    (harrow : ∀ token ∈ input.tokens.toList, token.kind ≠ .arrow) {expr : Expr}
    {tokens rest : List Token} {next : Token} (hexpr : expr.Printable)
    (htokens : Writes expr.print tokens) (hlength : tokens.length ≤ input.tokens.size)
    (hnext : Ends next) :
    (knot fun nt => nt.expr .none).Accepts input tokens (next :: rest) expr.SameAs := by
  have harrow (place : Nat) : (input.tokens.get place).kind ≠ .arrow := by
    rw [TokenStream.get_eq_getD_toList]
    cases hplace : input.tokens.toList[place]? with
    | none => exact harrow _ (List.mem_append_right _ List.mem_cons_self)
    | some token => exact harrow token (List.mem_of_getElem? hplace)
  have hdepth : tokens.length < depthOf input.tokens := by rw [depthOf]; omega
  have hread := (readsPrinted_nonterminals hscript harrow (depthOf input.tokens)).expr expr tokens
    next rest hexpr htokens hdepth hnext
  exact hread.of_eq (knot_expr .none)

/-- Printing an expression and reading it again gives the expression back, up to
numbers and spans, however the tokens are written. -/
theorem read_print (file : String) {expr : Expr} (hexpr : expr.Printable) :
    (∃ tokens, Writes expr.print tokens) ∧
      ∀ tokens last, Writes expr.print tokens → last.kind = .endOfInput →
        ∃ read after,
          knot (fun nt => nt.expr .none) ⟨.ofList (tokens ++ [last]), file, .script⟩ .start =
              .ok read after ∧
            after.place = tokens.length ∧ read.relabel .bare = expr.relabel .bare := by
  refine ⟨hexpr.soundSigns.exists_writes, fun tokens last htokens hlast => ?_⟩
  have hlist := @TokenStream.toList_ofList tokens last hlast
  have harrow : ∀ token ∈ (TokenStream.ofList (tokens ++ [last])).toList, token.kind ≠ .arrow := by
    rw [hlist]
    refine List.forall_mem_append.mpr ⟨hexpr.soundSigns.not_arrow htokens, ?_⟩
    exact List.forall_mem_singleton.mpr (by rw [hlast]; decide)
  have hlength : tokens.length ≤ (TokenStream.ofList (tokens ++ [last])).size := by
    rw [← TokenStream.length_toList, hlist, List.length_append]
    omega
  have hends : Ends last := by rw [Ends, hlast]; rfl
  have hread : (knot fun nt => nt.expr .none).Accepts
      ⟨.ofList (tokens ++ [last]), file, .script⟩ tokens [last] expr.SameAs :=
    accepts_knot rfl harrow hexpr htokens hlength hends
  exact hread.run hlast

/-- The expression `a.b = [...c]`. -/
def spreadAssigned : Expr :=
  .assignment ⟨.assignment, "=", ⟨0, 0⟩, false⟩
    (.member (.symbol ⟨"a", 1⟩ ⟨0, 0⟩) "b" ⟨0, 0⟩)
    (.array [.spread (.symbol ⟨"c", 2⟩ ⟨0, 0⟩) ⟨0, 0⟩] ⟨0, 0⟩) ⟨0, 0⟩

/-- The tokens of `(a.b) = ([...c])`. -/
def spreadAssignedTokens : List Token :=
  [⟨.openParen, "(", ⟨0, 1⟩, false⟩, ⟨.identifier, "a", ⟨1, 2⟩, false⟩,
    ⟨.dot, ".", ⟨2, 3⟩, false⟩, ⟨.identifier, "b", ⟨3, 4⟩, false⟩,
    ⟨.closeParen, ")", ⟨4, 5⟩, false⟩, ⟨.assignment, "=", ⟨6, 7⟩, false⟩,
    ⟨.openParen, "(", ⟨8, 9⟩, false⟩, ⟨.openBracket, "[", ⟨9, 10⟩, false⟩,
    ⟨.ellipsis, "...", ⟨10, 13⟩, false⟩, ⟨.identifier, "c", ⟨13, 14⟩, false⟩,
    ⟨.closeBracket, "]", ⟨14, 15⟩, false⟩, ⟨.closeParen, ")", ⟨15, 16⟩, false⟩]

theorem read_print_of_assignment :
    spreadAssigned.Printable ∧ Writes spreadAssigned.print spreadAssignedTokens ∧
      (Token.endAt 16 false).kind = .endOfInput ∧
      ∃ read after,
        knot (fun nt => nt.expr .none)
            ⟨.ofList (spreadAssignedTokens ++ [.endAt 16 false]), "spread.js", .script⟩ .start =
              .ok read after ∧
          after.place = 12 ∧ read.relabel .bare = spreadAssigned.relabel .bare := by
  have hexpr : spreadAssigned.Printable :=
    .assignment List.mem_cons_self rfl (.member .symbol)
      (.array (List.forall_mem_singleton.mpr .symbol))
  have htokens : Writes spreadAssigned.print spreadAssignedTokens := by
    have hname : TokenKind.ofWord "b" = .identifier := by decide
    simp [Writes, spreadAssigned, spreadAssignedTokens, Expr.print, Expr.enclose, Expr.standsBare,
      printEach, commas, Token.sign, Sign.Fits, Sign.Admits, hname]
  exact ⟨hexpr, htokens, rfl,
    (read_print "spread.js" hexpr).2 spreadAssignedTokens (.endAt 16 false) htokens rfl⟩

end Grammar

end ScriptKinds
