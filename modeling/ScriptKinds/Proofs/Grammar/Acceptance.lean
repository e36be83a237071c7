import ScriptKinds.Grammar.Script

/-!
Readers of known tokens.

A reader accepts some tokens in front of others if it succeeds where they lie
ahead, passes all of the former and none of the latter, and has a result with a
known property.  The rules below follow the ways in which readers are put
together, so that a reader accepts tokens as soon as its parts accept their
share of them.
-/

namespace ScriptKinds

/-- The tokens from a place on. -/
def Input.ahead (input : Input) (place : Nat) : List Token :=
  input.tokens.toList.drop place

namespace TokenStream

variable {tokens : List Token} {last : Token}

theorem ofList_append (h : last.kind = .endOfInput) :
    ofList (tokens ++ [last]) = ⟨tokens.toArray, last⟩ := by
  simp [ofList, h]

theorem toList_ofList (h : last.kind = .endOfInput) :
    (ofList (tokens ++ [last])).toList = tokens ++ [last] := by
  simp [ofList_append h, toList]

end TokenStream

namespace Input

variable {input : Input} {place : Nat} {token : Token} {others : List Token}

theorem get_of_ahead (h : input.ahead place = token :: others) :
    input.tokens.get place = token := by
  have htoken : input.tokens.toList[place]? = some token := by
    rw [← List.head?_drop]
    exact congrArg List.head? h
  rw [TokenStream.get_eq_getD_toList, htoken, Option.getD_some]

theorem ahead_succ (h : input.ahead place = token :: others) :
    input.ahead (place + 1) = others := by
  rw [ahead, ← List.tail_drop]
  exact congrArg List.tail h

theorem lt_of_ahead (h : input.ahead place = token :: others) (hothers : others ≠ []) :
    place < input.tokens.body.size := by
  have hlength := congrArg List.length h
  have hpos := List.length_pos_iff.mpr hothers
  simp only [ahead, List.length_drop, TokenStream.length_toList, TokenStream.size,
    List.length_cons] at hlength
  omega

theorem length_ahead_le (input : Input) (place : Nat) :
    (input.ahead place).length ≤ input.tokens.size := by
  simp [ahead]

end Input

namespace Reader

variable {α β σ : Type} {input : Input}

/-- With some tokens ahead and then others, a reader succeeds, passes the
former and has a result with a property.  Some token remains because the last
one is never passed. -/
def Accepts (reader : Reader α) (input : Input) (taken rest : List Token) (P : α → Prop) : Prop :=
  rest ≠ [] → ∀ progress : Progress, input.ahead progress.place = taken ++ rest →
    ∃ result after, reader input progress = .ok result after ∧
      input.ahead after.place = rest ∧ P result

variable {taken rest others : List Token} {token : Token} {P : α → Prop} {Q : β → Prop}

theorem Accepts.mono {reader : Reader α} {P' : α → Prop} (h : reader.Accepts input taken rest P)
    (himp : ∀ result, P result → P' result) : reader.Accepts input taken rest P' := by
  intro hrest progress hahead
  obtain ⟨result, after, hrun, hafter, hresult⟩ := h hrest progress hahead
  exact ⟨result, after, hrun, hafter, himp result hresult⟩

theorem Accepts.of_eq {reader other : Reader α} (h : reader input = other input)
    (hother : other.Accepts input taken rest P) : reader.Accepts input taken rest P := by
  unfold Accepts at hother ⊢
  rwa [h]

theorem Accepts.bind {first : Reader α} {next : α → Reader β}
    (hfirst : first.Accepts input taken (others ++ rest) P)
    (hnext : ∀ value, P value → (next value).Accepts input others rest Q) :
    (first >>= next).Accepts input (taken ++ others) rest Q := by
  intro hrest progress hahead
  have hmore : others ++ rest ≠ [] := fun h => hrest (List.append_eq_nil_iff.mp h).2
  obtain ⟨value, middle, hvalue, hmiddle, hP⟩ :=
    hfirst hmore progress (by rw [hahead, List.append_assoc])
  obtain ⟨result, after, hresult, hafter, hQ⟩ := hnext value hP hrest middle hmiddle
  refine ⟨result, after, ?_, hafter, hQ⟩
  change EStateM.bind (first input) (fun value => next value input) progress = _
  simp only [EStateM.bind, hvalue, hresult]

theorem Accepts.look {first : Reader α} {next : α → Reader β}
    (hfirst : first.Accepts input [] (taken ++ rest) P)
    (hnext : ∀ value, P value → (next value).Accepts input taken rest Q) :
    (first >>= next).Accepts input taken rest Q :=
  Accepts.bind hfirst hnext

theorem Accepts.conclude {first : Reader α} {next : α → Reader β}
    (hfirst : first.Accepts input taken rest P)
    (hnext : ∀ value, P value → (next value).Accepts input [] rest Q) :
    (first >>= next).Accepts input taken rest Q := by
  rw [← List.append_nil taken]
  exact Accepts.bind hfirst hnext

theorem Accepts.look_input {first : Reader α} {next : α → Reader β}
    (hfirst : first.Accepts input [] (taken ++ rest) P)
    (hnext : ∀ value, P value → (next value).Accepts input taken rest Q) :
    Reader.Accepts (fun input => first input >>= fun value => next value input) input taken rest
      Q :=
  hfirst.look hnext

theorem Accepts.at_input {reader : Reader α}
    (h : Reader.Accepts (fun _ => reader input) input taken rest P) :
    reader.Accepts input taken rest P :=
  h

theorem Accepts.to_input {reader : Reader α} (h : reader.Accepts input taken rest P) :
    Reader.Accepts (fun _ => reader input) input taken rest P :=
  h

theorem accepts_pure {result : α} (h : P result) :
    (pure result : Reader α).Accepts input [] rest P :=
  fun _ progress hahead => ⟨result, progress, rfl, hahead, h⟩

theorem accepts_current : current.Accepts input [] (token :: rest) (· = token) :=
  fun _ progress hahead => ⟨token, progress,
    congrArg (EStateM.Result.ok · progress) (Input.get_of_ahead hahead), hahead, rfl⟩

theorem accepts_advance : advance.Accepts input [token] rest (· = token) := by
  intro hrest progress hahead
  refine ⟨token, { progress with place := progress.place + 1 }, ?_, Input.ahead_succ hahead, rfl⟩
  simp only [advance, Input.get_of_ahead hahead, if_pos (Input.lt_of_ahead hahead hrest)]

theorem accepts_freshId : freshId.Accepts input [] rest fun _ => True :=
  fun _ progress hahead => ⟨progress.nextId, _, rfl, hahead, trivial⟩

theorem accepts_spanFrom (start : Nat) :
    (spanFrom start).Accepts input [] rest fun _ => True := by
  intro _ progress hahead
  obtain ⟨place, nextId⟩ := progress
  cases place <;> exact ⟨_, _, rfl, hahead, trivial⟩

theorem accepts_atKind (kind : TokenKind) :
    (atKind kind).Accepts input [] (token :: rest) (· = (token.kind == kind)) :=
  accepts_current.look fun _ htoken => accepts_pure (by rw [htoken])

theorem Accepts.if_at {kind : TokenKind} {yes no : Reader α}
    (hahead : taken ++ rest = token :: others) (h : token.kind = kind)
    (hyes : yes.Accepts input taken rest P) :
    (atKind kind >>= fun found => if found then yes else no).Accepts input taken rest P := by
  refine Accepts.look (hahead ▸ accepts_atKind kind) fun found hfound => ?_
  rw [hfound, h, beq_self_eq_true, if_pos rfl]
  exact hyes

theorem Accepts.unless_at {kind : TokenKind} {yes no : Reader α}
    (hahead : taken ++ rest = token :: others) (h : token.kind ≠ kind)
    (hno : no.Accepts input taken rest P) :
    (atKind kind >>= fun found => if found then yes else no).Accepts input taken rest P := by
  refine Accepts.look (hahead ▸ accepts_atKind kind) fun found hfound => ?_
  rw [hfound, beq_eq_false_iff_ne.mpr h, if_neg Bool.false_ne_true]
  exact hno

theorem accepts_expect {kind : TokenKind} (h : token.kind = kind) :
    (expect kind).Accepts input [token] rest (· = token) :=
  Accepts.if_at rfl h accepts_advance

theorem Accepts.see {next : Token → Reader α} (hahead : taken ++ rest = token :: others)
    (h : (next token).Accepts input taken rest P) :
    (current >>= next).Accepts input taken rest P :=
  Accepts.look (hahead ▸ accepts_current : current.Accepts input [] (taken ++ rest) (· = token))
    fun _ hfound => hfound ▸ h

theorem Accepts.pass {next : Token → Reader α} (h : (next token).Accepts input taken rest P) :
    (advance >>= next).Accepts input (token :: taken) rest P :=
  Accepts.bind (accepts_advance : advance.Accepts input [token] _ _) fun _ hfound => hfound ▸ h

theorem Accepts.pass_expected {kind : TokenKind} {next : Token → Reader α}
    (hkind : token.kind = kind) (h : (next token).Accepts input taken rest P) :
    (expect kind >>= next).Accepts input (token :: taken) rest P :=
  Accepts.bind (accepts_expect hkind : (expect kind).Accepts input [token] _ _)
    fun _ hfound => hfound ▸ h

theorem Accepts.if_skipped {kind : TokenKind} {yes no : Reader α} (h : token.kind = kind)
    (hyes : yes.Accepts input taken rest P) :
    (skipIf kind >>= fun found => if found then yes else no).Accepts input (token :: taken) rest
      P := by
  have hskip : (skipIf kind).Accepts input [token] (taken ++ rest) (· = true) :=
    Accepts.if_at rfl h (Accepts.pass (accepts_pure rfl))
  refine Accepts.bind hskip fun found hfound => ?_
  rw [hfound, if_pos rfl]
  exact hyes

theorem Accepts.unless_skipped {kind : TokenKind} {yes no : Reader α}
    (hahead : taken ++ rest = token :: others) (h : token.kind ≠ kind)
    (hno : no.Accepts input taken rest P) :
    (skipIf kind >>= fun found => if found then yes else no).Accepts input taken rest P := by
  have hskip : (skipIf kind).Accepts input [] (taken ++ rest) (· = false) :=
    Accepts.unless_at hahead h (accepts_pure rfl)
  refine Accepts.look hskip fun found hfound => ?_
  rw [hfound, if_neg Bool.false_ne_true]
  exact hno

theorem accepts_separator {close : TokenKind} (h : token.kind = .comma) (hclose : close ≠ .comma) :
    (separator close).Accepts input [token] rest fun _ => True :=
  Accepts.unless_at rfl (h ▸ hclose.symm) (Accepts.pass_expected h (accepts_pure trivial))

theorem accepts_separator_close {close : TokenKind} (h : token.kind = close) :
    (separator close).Accepts input [] (token :: rest) fun _ => True :=
  Accepts.if_at rfl h (accepts_pure trivial)

/-- A reader that accepts all tokens of a text but the last one stops at that
one. -/
theorem Accepts.run {reader : Reader α} {tokens : List Token} {last : Token} {file : String}
    {grammar : Grammar} (hlast : last.kind = .endOfInput)
    (h : reader.Accepts ⟨.ofList (tokens ++ [last]), file, grammar⟩ tokens [last] P) :
    ∃ result after, reader ⟨.ofList (tokens ++ [last]), file, grammar⟩ .start = .ok result after ∧
      after.place = tokens.length ∧ P result := by
  have hlist := @TokenStream.toList_ofList tokens last hlast
  obtain ⟨result, after, hrun, hafter, hresult⟩ := h (List.cons_ne_nil _ _) .start hlist
  refine ⟨result, after, hrun, ?_, hresult⟩
  have hlength := congrArg List.length hafter
  simp only [Input.ahead, hlist, List.length_drop, List.length_append, List.length_singleton]
    at hlength
  omega

section Repetition

theorem accepts_bound {next : Nat → Reader α}
    (h : ∀ bound, taken.length < bound → (next bound).Accepts input taken rest P) :
    (bound >>= next).Accepts input taken rest P := by
  intro hrest progress hahead
  have hlength := input.length_ahead_le progress.place
  rw [hahead, List.length_append] at hlength
  exact h (input.tokens.size + 1) (by omega) hrest progress hahead

theorem accepts_again {step : σ → Reader (Again σ α)} {bound : Nat} {state : σ} {R : σ → Prop}
    (hstep : (step state).Accepts input taken (others ++ rest)
      fun next => ∃ reached, next = .again reached ∧ R reached)
    (hothers : ∀ reached, R reached →
      (repeatAtMost step bound reached).Accepts input others rest P) :
    (repeatAtMost step (bound + 1) state).Accepts input (taken ++ others) rest P := by
  refine hstep.bind fun next hnext => ?_
  obtain ⟨reached, rfl, hreached⟩ := hnext
  exact hothers reached hreached

theorem accepts_done {step : σ → Reader (Again σ α)} {bound : Nat} {state : σ}
    (hstep : (step state).Accepts input taken rest fun next => ∃ result, next = .done result ∧
      P result) :
    (repeatAtMost step (bound + 1) state).Accepts input taken rest P := by
  refine hstep.conclude fun next hnext => ?_
  obtain ⟨result, rfl, hresult⟩ := hnext
  exact accepts_pure hresult

variable {finished : Reader Bool} {item : Reader (List α)} {bound : Nat}

theorem accepts_collect_nil (h : finished.Accepts input [] rest (· = true)) :
    (collectAtMost finished item (bound + 1)).Accepts input [] rest (· = []) := by
  refine h.look fun found hfound => ?_
  rw [hfound, if_pos rfl]
  exact accepts_pure rfl

theorem accepts_collect_cons {P P' Q : List α → Prop}
    (hfinished : finished.Accepts input [] ((taken ++ others) ++ rest) (· = false))
    (hitem : item.Accepts input taken (others ++ rest) P)
    (hothers : (collectAtMost finished item bound).Accepts input others rest Q)
    (happend : ∀ first found, P first → Q found → P' (first ++ found)) :
    (collectAtMost finished item (bound + 1)).Accepts input (taken ++ others) rest P' := by
  refine hfinished.look fun found hfound => ?_
  rw [hfound, if_neg Bool.false_ne_true]
  exact hitem.bind fun first hfirst => hothers.conclude fun found hfound =>
    accepts_pure (happend first found hfirst hfound)

end Repetition

end Reader

namespace Grammar

open Reader

variable {input : Input} {nt : Nonterminals} {power : Power} {left : Expr}
variable {taken rest others : List Token} {token : Token} {P : Expr → Prop}

/-- Whether an expression of tokens that bind closer than a power ends in front
of a token. -/
def StopsAt (power : Power) (token : Token) : Prop :=
  ∀ form own, script.trailing? token.kind = some (form, own) → own ≤ power

/-- An expression does not go on with a token that does not bind closely
enough. -/
theorem accepts_stop (hscript : input.grammar = .script) (hstop : StopsAt power token) :
    (readContinuation nt power left).Accepts input [] (token :: rest) (· = .done left) := by
  refine .look_input accepts_current fun found hfound => .at_input ?_
  simp only [hscript, hfound]
  cases htrailing : script.trailing? token.kind with
  | none => exact accepts_pure rfl
  | some continuation =>
      obtain ⟨form, own⟩ := continuation
      simp only [hstop form own htrailing, true_or, if_true]
      exact accepts_pure rfl

theorem accepts_continue (hscript : input.grammar = .script) {form : TrailingForm} {own : Power}
    (htrailing : script.trailing? token.kind = some (form, own)) (hpower : ¬ own ≤ power)
    (hline : startsLineUpdate token = false)
    (htrail : (readTrailing nt left own form).Accepts input (token :: taken) rest P) :
    (readContinuation nt power left).Accepts input (token :: taken) rest
      fun next => ∃ reached, next = .again reached ∧ P reached := by
  refine .look_input (P := (· = token)) accepts_current fun found hfound => .at_input ?_
  simp only [hscript, hfound, htrailing, hpower, hline, Bool.false_eq_true, or_self, if_false]
  have hnext : (do return .again (← readTrailing nt left own form) :
      Reader (Again Expr Expr)).Accepts input (token :: taken) rest
        fun next => ∃ reached, next = .again reached ∧ P reached :=
    htrail.conclude fun reached hreached => accepts_pure ⟨reached, rfl, hreached⟩
  exact hnext.to_input

/-- An expression is read by the form that its first token starts and then goes
on for as long as tokens bind closely enough. -/
theorem accepts_readExpr (hscript : input.grammar = .script) {form : LeadingForm}
    {first : List Token} {R : Expr → Prop}
    (hleading : script.leading? token.kind = some form)
    (hfirst : (readLeading nt form).Accepts input (token :: first) (others ++ rest) R)
    (hothers : ∀ left, R left → ∀ bound, others.length < bound →
      (repeatAtMost (readContinuation nt power) bound left).Accepts input others rest P) :
    (readExpr nt power).Accepts input (token :: first ++ others) rest P := by
  refine .look_input (P := (· = token)) accepts_current fun found hfound => .at_input ?_
  simp only [hscript, hfound, hleading]
  exact (hfirst.bind fun left hleft => accepts_bound (hothers left hleft)).to_input

end Grammar

end ScriptKinds
