import ScriptKinds.Proofs.Grammar.Restriction
import ScriptKinds.Proofs.Token.Lexed

namespace ScriptKinds

open TokenKind

namespace Token

/-- Whether a token of a source names a member behind a dot: it is a word, or it
is delimited and has the text of a reserved word. -/
def FollowsDot (token : Token) : Prop :=
  token.kind ∈ words ∨ token.kind ∈ delimited ∧ (ofReserved? token.text).isSome = true

end Token

namespace Grammar

open Constituent Reader

/-- A member access is written as its object, a dot and its name. -/
def Accessed (tokens : TokenStream) : Node → Prop
  | .expr (.member object name _) =>
      ∃ first dot, Derivation tokens first dot [.node (.expr object)] ∧
        (tokens.get dot).kind = .dot ∧ (tokens.get (dot + 1)).isPropertyName = true ∧
        (tokens.get (dot + 1)).text = name
  | _ => True

theorem Production.accessed {tokens : TokenStream} (hends : tokens.last.kind = .endOfInput)
    {first last : Nat} {node : Node} {parts : List Constituent}
    (hproduction : Production node parts)
    (h : Derived tokens (fun _ _ => Accessed tokens) first last parts) : Accessed tokens node := by
  cases hproduction with
  | access hdot hname =>
      obtain ⟨dot, hobject, hothers⟩ := h.uncons
      obtain ⟨rfl, hlast⟩ := hothers.of_token hends (by simp [hdot])
      cases hlast with
      | token => exact ⟨first, dot, hobject.keep fun _ _ => trivial, hdot, hname, rfl⟩
  | group hgroup =>
      obtain ⟨hopening, hclosing⟩ := hgroup
      obtain ⟨-, hinner⟩ := h.of_token hends (by simp [hopening])
      cases hinner with
      | node _ hkeeps => exact hkeeps
  | _ => trivial

theorem rejects_behind_dot {input : Input} (hgrammar : input.grammar = .script)
    (hends : input.tokens.last.kind = .endOfInput) (nt : Nonterminals) {power : Power}
    (hpower : ¬Power.member ≤ power) (left : Expr) {before : Progress}
    (hdot : (input.tokens.get before.place).kind = .dot)
    (hname : (input.tokens.get (before.place + 1)).isPropertyName = false) :
    ∃ after, readContinuation nt power left input before = .error (.fault
      ⟨.expected (input.tokens.get (before.place + 1)).text "expected property name after `.`",
        (input.tokens.get (before.place + 1)).span.start, input.file⟩) after := by
  have hlt : before.place < input.tokens.body.size := TokenStream.lt_size hends (by simp [hdot])
  have haccess : readMemberAccess left input before = .error (.fault
      ⟨.expected (input.tokens.get (before.place + 1)).text "expected property name after `.`",
        (input.tokens.get (before.place + 1)).span.start, input.file⟩)
      { before with place := before.place + 1 } := by
    simp [readMemberAccess, advance, current, peek, failExpecting, failAt, bind, ReaderT.bind,
      EStateM.bind, hlt, hname]
  refine ⟨{ before with place := before.place + 1 }, ?_⟩
  simp [readContinuation, current, peek, bind, EStateM.bind, hgrammar, hdot, Grammar.script,
    hpower, startsLineUpdate, readTrailing, haccess]

end Grammar

namespace Script

open Grammar Grammar.Constituent

variable {file source : String} {tokens : List Token}

theorem isPropertyName_iff_followsDot (h : Token.ofSource file source = .ok tokens)
    (place : Nat) : ((TokenStream.ofList tokens).get place).isPropertyName = true ↔
      ((TokenStream.ofList tokens).get place).FollowsDot := by
  rcases Token.lexed_or_end h place with hlexed | ⟨offset, newline, hend⟩
  · exact hlexed.isPropertyName_iff
  · rw [hend]
    have hkind : TokenKind.endOfInput ∉ words ∧ TokenKind.endOfInput ∉ delimited := by decide
    exact iff_of_false nofun fun hname => hname.elim hkind.1 fun h => hkind.2 h.1

/-- In the tree of a source a member that is accessed by name is written with a dot
and a name behind it.  That is a word, or else it is delimited and its text is a
reserved word.  Any other token behind a dot is rejected where it stands. -/
theorem members_named (htokens : Token.ofSource file source = .ok tokens) :
    (∀ script, ofTokens file tokens = .ok script → ∀ object name span,
      Node.Inside (.expr (.member object name span)) (.block script.root) →
        ∃ first dot, Derivation (.ofList tokens) first dot [.node (.expr object)] ∧
          ((TokenStream.ofList tokens).get dot).kind = .dot ∧
          ((TokenStream.ofList tokens).get (dot + 1)).FollowsDot ∧
          ((TokenStream.ofList tokens).get (dot + 1)).text = name) ∧
    ∀ nt power left before, ¬Power.member ≤ power →
      ((TokenStream.ofList tokens).get before.place).kind = .dot →
      ¬((TokenStream.ofList tokens).get (before.place + 1)).FollowsDot →
        ∃ after, readContinuation nt power left ⟨.ofList tokens, file, .script⟩ before =
          .error (.fault ⟨.expected ((TokenStream.ofList tokens).get (before.place + 1)).text
            "expected property name after `.`",
            ((TokenStream.ofList tokens).get (before.place + 1)).span.start, file⟩) after := by
  refine ⟨fun script hscript object name span hinside => ?_, ?_⟩
  · obtain ⟨last, -, hderivation⟩ := derivation hscript
    have hwritten := written_of_inside (hderivation.keep fun hproduction hparts =>
      hproduction.accessed (closed_ofList file tokens).ends hparts) hinside
    rcases hwritten with heq | ⟨first, last, hnode | hbare⟩ | ⟨name, heq⟩
    · cases heq
    · cases hnode with
      | node _ hkeeps =>
          obtain ⟨first, dot, hobject, hdot, hname, htext⟩ := hkeeps
          exact ⟨first, dot, hobject, hdot, (isPropertyName_iff_followsDot htokens _).mp hname,
            htext⟩
    · cases hbare with
      | bare hproduction => cases hproduction
    · cases heq
  · intro nt power left before hpower hdot hname
    apply rejects_behind_dot rfl (closed_ofList file tokens).ends nt hpower left hdot
    rw [← Bool.not_eq_true]
    exact fun hnamed => hname ((isPropertyName_iff_followsDot htokens _).mp hnamed)

/-- A reserved word names a member. -/
theorem members_named_by_word :
    ∃ tokens script, Token.ofSource "names.js" "a.if" = .ok tokens ∧
      ofTokens "names.js" tokens = .ok script ∧
      ∀ object name span, Node.Inside (.expr (.member object name span)) (.block script.root) →
        ∃ first dot, Derivation (.ofList tokens) first dot [.node (.expr object)] ∧
          ((TokenStream.ofList tokens).get dot).kind = .dot ∧
          ((TokenStream.ofList tokens).get (dot + 1)).FollowsDot ∧
          ((TokenStream.ofList tokens).get (dot + 1)).text = name := by
  have htokens : Token.ofSource "names.js" "a.if" = .ok
      [⟨.identifier, "a", ⟨0, 1⟩, false⟩, ⟨.dot, ".", ⟨1, 2⟩, false⟩,
        ⟨.ifWord, "if", ⟨2, 4⟩, false⟩, .endAt 4 false] := by
    have hlength : "a.if".toList.length ≤ 4 := by decide
    rw [← Token.ofSourceWithin_eq hlength]
    rfl
  exact ⟨_, _, htokens, rfl, (members_named htokens).1 _ rfl⟩

/-- A string whose text is a reserved word names one as well. -/
theorem member_named_by_string :
    ∃ tokens script, Token.ofSource "names.js" "a.\"if\"" = .ok tokens ∧
      ofTokens "names.js" tokens = .ok script ∧
      Node.Inside (.expr (.member (.symbol ⟨"a", 1⟩ ⟨0, 1⟩) "if" ⟨0, 6⟩)) (.block script.root) ∧
      ∀ dot, ((TokenStream.ofList tokens).get dot).kind = .dot →
        ((TokenStream.ofList tokens).get (dot + 1)).kind = .string := by
  have htokens : Token.ofSource "names.js" "a.\"if\"" = .ok
      [⟨.identifier, "a", ⟨0, 1⟩, false⟩, ⟨.dot, ".", ⟨1, 2⟩, false⟩,
        ⟨.string, "if", ⟨2, 6⟩, false⟩, .endAt 6 false] := by
    have hlength : "a.\"if\"".toList.length ≤ 6 := by decide
    rw [← Token.ofSourceWithin_eq hlength]
    rfl
  refine ⟨_, _, htokens, rfl, .deeper List.mem_cons_self (.child List.mem_cons_self), ?_⟩
  intro dot hdot
  have hlt : dot < 3 := TokenStream.lt_size rfl fun hkind => nomatch hdot.symm.trans hkind
  match dot with
  | 0 => cases hdot
  | 1 => rfl
  | 2 => cases hdot

end Script

end ScriptKinds
