import ScriptKinds.Proofs.Grammar.MemberNames
import ScriptKinds.Proofs.Token.Division

namespace ScriptKinds

theorem Input.Terminated.kind_ne_end {input : Input} (h : input.Terminated) {place : Nat}
    (hname : (input.tokens.get place).isPropertyName = true) :
    (input.tokens.get place).kind ≠ .endOfInput := by
  intro hkind
  have hnameless := h.nameless place hkind
  rw [Token.isMemberName, hname] at hnameless
  cases hnameless

namespace Grammar

open Constituent

/-- The last token in front of a place is of a kind that ends an operand, or it
names a member behind a dot. -/
def EndsOperand (tokens : TokenStream) (last : Nat) : Prop :=
  ∃ place, last = place + 1 ∧ (Context.operandEnds.contains (tokens.get place).kind = true ∨
    ∃ dot, place = dot + 1 ∧ (tokens.get dot).kind = .dot ∧
      (tokens.get place).isPropertyName = true)

/-- What expressions and blocks end with. -/
def Ended (tokens : TokenStream) (last : Nat) : Node → Prop
  | .expr _ | .block _ => EndsOperand tokens last
  | _ => True

variable {tokens : TokenStream} {first last : Nat} {parts : List Constituent}

section Last

variable {keeps : Nat → Nat → Node → Prop} (front : List Constituent)

include front

theorem Derived.ends_kind (hends : tokens.last.kind = .endOfInput) {token : Token}
    {kind : TokenKind} (h : Derived tokens keeps first last (front ++ [Constituent.token token]))
    (hkind : token.kind = kind)
    (hoperand : Context.operandEnds.contains kind = true) :
    EndsOperand tokens last := by
  obtain ⟨place, -, hlast⟩ := h.split
  have hne : kind ≠ .endOfInput := by
    rintro rfl
    cases hoperand
  obtain ⟨rfl, hnil⟩ := hlast.of_token hends (hkind ▸ hne)
  cases hnil
  exact ⟨place, rfl, .inl (hkind ▸ hoperand)⟩

theorem Derived.ends_enclosed (hends : tokens.last.kind = .endOfInput)
    {opening closing : TokenKind} {mark : Token → Prop} {nodes : List Node}
    (h : Derived tokens keeps first last (front ++ parts))
    (hparts : Enclosed opening closing mark nodes parts)
    (hoperand : Context.operandEnds.contains closing = true) :
    EndsOperand tokens last := by
  obtain ⟨middle, -, hlast⟩ := h.split
  obtain ⟨-, -, hclosing⟩ := hparts
  exact Derived.ends_kind (.token _ :: _) hends hlast hclosing hoperand

theorem Derived.ends_node {node : Node}
    (h : Derived tokens (fun _ => Ended tokens) first last (front ++ [Constituent.node node])) :
    Ended tokens last node := by
  obtain ⟨middle, -, hlast⟩ := h.split
  cases hlast with
  | node _ hkeeps _ hnil =>
      cases hnil
      exact hkeeps

theorem Derived.ends_arrow {body : Block} {part : Constituent}
    (h : Derived tokens (fun _ => Ended tokens) first last (front ++ [part]))
    (hpart : ArrowBody body part) : EndsOperand tokens last := by
  cases hpart with
  | block => exact h.ends_node front
  | expr =>
      -- The block and its statement end where the value does that they stand for.
      obtain ⟨middle, -, hlast⟩ := h.split
      cases hlast with
      | bare hbody hresult hnil =>
          cases hnil
          cases hbody
          cases hresult with
          | bare hresult hvalue hnil =>
              cases hnil
              cases hresult
              exact hvalue.ends_node []

theorem Derived.ends_separated {values : List Expr}
    (h : Derived tokens (fun _ => Ended tokens) first last (front ++ parts))
    (hparts : Separated (values.map .expr) parts) : EndsOperand tokens last := by
  generalize hnodes : values.map Node.expr = nodes at hparts
  induction hparts generalizing front values with
  | single =>
      cases values with
      | nil => cases hnodes
      | cons value others =>
          obtain ⟨rfl, -⟩ := List.cons.inj hnodes
          exact h.ends_node front
  | comma _ _ ih =>
      cases values with
      | nil => cases hnodes
      | cons value others =>
          obtain ⟨-, hothers⟩ := List.cons.inj hnodes
          exact ih (front ++ [Constituent.node _, .token _]) (by simpa using h) hothers

end Last

theorem Production.ended {input : Input} (hterminated : input.Terminated) {node : Node}
    (hproduction : Production node parts)
    (h : Derived input.tokens (fun _ => Ended input.tokens) first last parts) :
    Ended input.tokens last node := by
  have hends := hterminated.ends
  cases hproduction with
  | number hkind | string hkind | plainTemplate hkind | null hkind | symbol hkind | regex hkind =>
      exact h.ends_kind [] hends hkind (by decide)
  | boolean hkind => exact h.ends_kind [] hends hkind (by split <;> decide)
  | template _ _ htail => exact h.ends_kind (.token _ :: _) hends htail (by decide)
  | array hparts | object hparts => exact h.ends_enclosed [] hends hparts (by decide)
  | functionExpr => exact h.ends_node (.token _ :: _)
  | method => exact h.ends_node _
  | @arrow _ token _ inner _ _ _ _ hbody =>
      exact Derived.ends_arrow (inner ++ [Constituent.token token]) (by simpa using h) hbody
  | nameArrow _ hbody => exact h.ends_arrow [.bare _, .token _] hbody
  | classExpr _ _ htail =>
      obtain ⟨_, hmembers⟩ := htail
      rw [← List.append_assoc] at h
      exact Derived.ends_enclosed (.token _ :: _) hends h hmembers (by decide)
  | group hgroup =>
      obtain ⟨-, hclosing⟩ := hgroup
      exact h.ends_kind [.token _, .node _] hends hclosing (by decide)
  | spread | unary | leadingUpdate | plainNew => exact h.ends_node [.token _]
  | trailingUpdate hoperator =>
      rcases hoperator.update_kind with hkind | hkind <;>
        exact h.ends_kind [.node _] hends hkind (by decide)
  | binary | assignment => exact h.ends_node [.node _, .token _]
  | conditional => exact h.ends_node [.node _, .token _, .node _, .token _]
  | sequence _ hothers => exact h.ends_separated [.node _, .token _] hothers
  | call harguments => exact h.ends_enclosed [.node _] hends harguments (by decide)
  | new _ harguments => exact h.ends_enclosed [.token _, .node _] hends harguments (by decide)
  | access hdot hname =>
      obtain ⟨dot, -, hothers⟩ := h.uncons
      obtain ⟨rfl, hlast⟩ := hothers.of_token hends (by simp [hdot])
      cases hlast with
      | token hnil =>
          rw [TokenStream.after_eq hends (hterminated.kind_ne_end hname)] at hnil
          cases hnil
          exact ⟨dot + 1, rfl, .inr ⟨dot, rfl, hdot, hname⟩⟩
  | index _ hclosing => exact h.ends_kind [.node _, .token _, .node _] hends hclosing (by decide)
  | block _ hclosing => exact h.ends_kind (.token _ :: _) hends hclosing (by decide)
  | _ => trivial

/-- An expression that is a statement of its own ends in front of the semicolon, or
where that is missing. -/
theorem Derived.ends_statement {input : Input} (hterminated : input.Terminated) {value : Expr}
    {span : Span}
    (h : Derivation input.tokens first last [.node (.stmt (.expression value span))]) :
    (∃ place, last = place + 1 ∧ (input.tokens.get place).kind = .semicolon) ∨
      EndsOperand input.tokens last := by
  have hkept : Derived input.tokens (fun _ => Ended input.tokens) first last
      [.node (.stmt (.expression value span))] :=
    h.keep fun hproduction hparts => hproduction.ended hterminated hparts
  cases hkept with
  | node hproduction _ hparts hnil =>
      cases hnil
      cases hproduction with
      | expression hending =>
          obtain ⟨middle, hvalue, hlast⟩ := hparts.uncons
          cases hending with
          | semicolon hkind =>
              obtain ⟨rfl, hnil⟩ := hlast.of_token hterminated.ends (by simp [hkind])
              cases hnil
              exact .inl ⟨middle, rfl, hkind⟩
          | omitted =>
              cases hlast with
              | ahead hnil =>
                  cases hnil
                  exact .inr (hvalue.ends_node [])

end Grammar

namespace Token

open Text

variable {file source : String} {tokens : List Token}

theorem dropLast_of_ends (h : ofSource file source = .ok tokens) {place : Nat}
    (hkind : ((TokenStream.ofList tokens).get place).kind ≠ .endOfInput)
    (hend : ((TokenStream.ofList tokens).get (place + 1)).kind = .endOfInput) :
    ∃ front, tokens.dropLast = front ++ [(TokenStream.ofList tokens).get place] ∧
      ∀ before, place = before + 1 →
        front.getLast? = some ((TokenStream.ofList tokens).get before) := by
  obtain ⟨body, newline, rfl, hbody⟩ := (covers_ofSource h).ends
  rw [TokenStream.ofList_append rfl] at hkind hend ⊢
  have hlt : place < body.length := by simpa using TokenStream.lt_size rfl hkind
  have hget {before : Nat} (hbefore : before < body.length) :
      TokenStream.get ⟨body.toArray, endAt (0 + byteLength source.toList) newline⟩ before =
        body[before] := by
    rw [TokenStream.get, List.getElem?_toArray, List.getElem?_eq_getElem hbefore]
    rfl
  have hlength : body.length = place + 1 := by
    by_contra hne
    have hnext : place + 1 < body.length := by omega
    rw [hget hnext] at hend
    exact hbody _ (List.getElem_mem hnext) hend
  refine ⟨body.take place, ?_, ?_⟩
  · rw [List.dropLast_concat, hget hlt, List.take_append_getElem, ← hlength, List.take_length]
  · rintro before rfl
    have hbefore : before < body.length := by omega
    rw [hget hbefore, List.take_add_one, List.getElem?_eq_getElem hbefore]
    exact List.getLast?_concat

end Token

namespace Script

open Grammar TokenKind

variable {file source : String} {tokens : List Token} {script : Script} {value : Expr} {span : Span}

/-- A slash on the line behind an expression divides, if the last token of the
expression is of a kind that ends an operand.  It is of another kind only if it is a
reserved word that names a member, and then the slash begins a regular
expression. -/
theorem slash_behind_expression (htokens : Token.ofSource file source = .ok tokens)
    (hscript : ofTokens file tokens = .ok script)
    (hbody : script.root.body = [.expression value span])
    (hend : tokens.dropLast.getLast?.map (·.kind) ≠ some .semicolon) :
    ∃ (front : List Token) (last : Token), tokens.dropLast = front ++ [last] ∧
      if Context.operandEnds.contains last.kind then
        Token.ofSource file (source ++ "\n" ++ "/ a / b") =
          .ok (tokens.dropLast ++ Token.divisions source.utf8ByteSize)
      else
        last.kind ∈ reservedWords.map Prod.snd ∧
          front.getLast?.map (·.kind) = some .dot ∧
          Token.ofSource file (source ++ "\n" ++ "/ a / b") =
            .ok (tokens.dropLast ++ Token.regexThenName source.utf8ByteSize) := by
  have hterminated := (laidOut_ofSource htokens).toTerminated
  obtain ⟨stop, hstop, hderivation⟩ := derivation hscript
  rw [hbody] at hderivation
  have hends : (∃ place, stop = place + 1 ∧
      ((TokenStream.ofList tokens).get place).kind = .semicolon) ∨
        EndsOperand (.ofList tokens) stop := Derived.ends_statement hterminated hderivation
  -- There is no semicolon, so the statement ends where its expression does.
  rcases hends with ⟨place, rfl, hkind⟩ | ⟨place, rfl, hlast⟩
  · obtain ⟨front, hfront, -⟩ := Token.dropLast_of_ends htokens (by simp [hkind]) hstop
    simp [hfront, hkind] at hend
  have hkind : ((TokenStream.ofList tokens).get place).kind ≠ .endOfInput := by
    rcases hlast with hoperand | ⟨dot, -, -, hname⟩
    · intro hkind
      rw [hkind] at hoperand
      cases hoperand
    · exact hterminated.kind_ne_end hname
  obtain ⟨front, hfront, hbefore⟩ := Token.dropLast_of_ends htokens hkind hstop
  have hprevious : tokens.dropLast.getLast?.map (·.kind) =
      some ((TokenStream.ofList tokens).get place).kind := by
    simp [hfront]
  have hslash := Token.ofSource_slash htokens hprevious
  refine ⟨front, _, hfront, ?_⟩
  split
  · rename_i hoperand
    rwa [if_pos hoperand] at hslash
  · rename_i hoperand
    rw [if_neg hoperand] at hslash
    obtain ⟨dot, rfl, hdot, hname⟩ := hlast.resolve_left hoperand
    have hmiddle := Token.last_kind_of_ofSource htokens
    rw [hprevious] at hmiddle
    -- What names a member and ends no operand is a reserved word or a part of a template.
    have hreserved : ∀ kind ∈ words ++ delimited, ¬Context.operandEnds.contains kind = true →
        some kind ∉ [some templateHead, some templateMiddle] →
          kind ∈ reservedWords.map Prod.snd := by decide
    refine ⟨hreserved _ ?_ hoperand hmiddle, by rw [hbefore dot rfl, Option.map_some, hdot], hslash⟩
    rw [List.mem_append]
    exact ((isPropertyName_iff_followsDot htokens _).mp hname).imp_right And.left

/-- Behind a call. -/
theorem slash_behind_call :
    ∃ tokens script value span, Token.ofSource "slash.js" "f(x)" = .ok tokens ∧
      ofTokens "slash.js" tokens = .ok script ∧ script.root.body = [.expression value span] ∧
      tokens.dropLast.getLast?.map (·.kind) ≠ some .semicolon ∧
      ∃ (front : List Token) (last : Token), tokens.dropLast = front ++ [last] ∧
        if Context.operandEnds.contains last.kind then
          Token.ofSource "slash.js" ("f(x)" ++ "\n" ++ "/ a / b") =
            .ok (tokens.dropLast ++ Token.divisions 4)
        else
          last.kind ∈ reservedWords.map Prod.snd ∧ front.getLast?.map (·.kind) = some .dot ∧
            Token.ofSource "slash.js" ("f(x)" ++ "\n" ++ "/ a / b") =
              .ok (tokens.dropLast ++ Token.regexThenName 4) := by
  have htokens : Token.ofSource "slash.js" "f(x)" = .ok
      [⟨.identifier, "f", ⟨0, 1⟩, false⟩, ⟨.openParen, "(", ⟨1, 2⟩, false⟩,
        ⟨.identifier, "x", ⟨2, 3⟩, false⟩, ⟨.closeParen, ")", ⟨3, 4⟩, false⟩,
        .endAt 4 false] := by
    have hlength : "f(x)".toList.length ≤ 4 := by decide
    rw [← Token.ofSourceWithin_eq hlength]
    rfl
  exact ⟨_, _, _, _, htokens, rfl, rfl, by decide,
    slash_behind_expression htokens rfl rfl (by decide)⟩

/-- Behind a member that is named by a reserved word. -/
theorem regex_behind_reserved_name :
    ∃ tokens script value span, Token.ofSource "slash.js" "a.if" = .ok tokens ∧
      ofTokens "slash.js" tokens = .ok script ∧ script.root.body = [.expression value span] ∧
      tokens.dropLast.getLast?.map (·.kind) ≠ some .semicolon ∧
      Token.ofSource "slash.js" "a.if\n/ a / b" = .ok
        [⟨.identifier, "a", ⟨0, 1⟩, false⟩, ⟨.dot, ".", ⟨1, 2⟩, false⟩,
          ⟨.ifWord, "if", ⟨2, 4⟩, false⟩, ⟨.regex, "/ a /", ⟨5, 10⟩, true⟩,
          ⟨.identifier, "b", ⟨11, 12⟩, false⟩, .endAt 12 false] := by
  have htokens : Token.ofSource "slash.js" "a.if" = .ok
      [⟨.identifier, "a", ⟨0, 1⟩, false⟩, ⟨.dot, ".", ⟨1, 2⟩, false⟩,
        ⟨.ifWord, "if", ⟨2, 4⟩, false⟩, .endAt 4 false] := by
    have hlength : "a.if".toList.length ≤ 4 := by decide
    rw [← Token.ofSourceWithin_eq hlength]
    rfl
  refine ⟨_, _, _, _, htokens, rfl, rfl, by decide, ?_⟩
  have hlength : "a.if\n/ a / b".toList.length ≤ 12 := by decide
  rw [← Token.ofSourceWithin_eq hlength]
  rfl

end Script

end ScriptKinds
