import ScriptKinds.Proofs.Grammar.DerivedNodes

namespace ScriptKinds

/-- Whether a statement is to be ended by a semicolon. -/
def Stmt.wantsSemicolon : Stmt → Bool
  | .expression .. | .varDeclaration .. | .result .. | .raise .. | .leave .. | .skip ..
  | .imports .. => true
  | _ => false

/-- The statements that stand one behind the other in a block or a clause. -/
def Node.statements : Node → List Stmt
  | .block inner => inner.body
  | .clause inner => inner.body
  | _ => []

namespace Grammar

open Constituent

/-- A stretch of tokens that ends with a semicolon, or in front of a token before
which the semicolon may be missing. -/
def Terminated (tokens : TokenStream) (first last : Nat) : Prop :=
  (∃ place, first ≤ place ∧ last = place + 1 ∧ (tokens.get place).kind = .semicolon) ∨
    (tokens.get last).kind = .closeCurly ∨ (tokens.get last).kind = .endOfInput ∨
      (tokens.get last).newlineBefore = true

/-- A stretch of tokens that begins with the words and the name of a member and
the parenthesis that opens its parameters. -/
def BeginsMethod (tokens : TokenStream) (first last : Nat) : Prop :=
  ∃ name, first ≤ name ∧ name < last ∧ (tokens.get (name + 1)).kind = .openParen ∧
    ∀ place, first ≤ place → place ≤ name → (tokens.get place).isMemberName = true

/-- What line breaks and semicolons ask of a node between two places. -/
def Restricted (tokens : TokenStream) (first last : Nat) : Node → Prop
  | .expr (.update operator _ false _) =>
      operator.newlineBefore = false ∧
        ∃ place, first ≤ place ∧ place < last ∧ tokens.get place = operator
  | .stmt (.result (some _) _) =>
      (tokens.get (first + 1)).newlineBefore = false ∧ Terminated tokens first last
  | .stmt inner => inner.wantsSemicolon = true → Terminated tokens first last
  | .member _ => BeginsMethod tokens first last ∨ Terminated tokens first last
  | _ => True

variable {tokens : TokenStream} {keeps : Nat → Nat → Node → Prop} {first last : Nat}
  {parts others : List Constituent}

section Places

theorem Derived.of_token {token : Token}
    (h : Derived tokens keeps first last (.token token :: others))
    (hends : tokens.last.kind = .endOfInput) (hkind : token.kind ≠ .endOfInput) :
    tokens.get first = token ∧ Derived tokens keeps (first + 1) last others := by
  cases h with
  | token hothers =>
      rw [TokenStream.after_eq hends hkind] at hothers
      exact ⟨rfl, hothers⟩

theorem Derived.terminated (hends : tokens.last.kind = .endOfInput) {ending : List Constituent}
    (hending : Terminator ending) (front : List Constituent)
    (h : Derived tokens keeps first last (front ++ ending)) : Terminated tokens first last := by
  obtain ⟨middle, hparts, hlast⟩ := h.split
  cases hending with
  | semicolon hkind =>
      obtain ⟨htoken, hnil⟩ := hlast.of_token hends (by simp [hkind])
      cases hnil
      exact .inl ⟨middle, hparts.le, rfl, htoken ▸ hkind⟩
  | omitted hplace =>
      cases hlast with
      | ahead hnil =>
          cases hnil
          exact .inr hplace

theorem Derived.of_modifier (hends : tokens.last.kind = .endOfInput) {words : List String}
    {present : Bool} (hmark : Marked (Modifier words) present parts)
    (h : Derived tokens keeps first last (parts ++ others)) :
    ∃ middle, first ≤ middle ∧ Derived tokens keeps middle last others ∧
      ∀ place, first ≤ place → place < middle → (tokens.get place).isMemberName = true := by
  cases hmark with
  | absent => exact ⟨first, Nat.le_refl _, h, fun place hle hlt => absurd hlt (by omega)⟩
  | @present token hword =>
      obtain ⟨word, -, hword⟩ := List.any_eq_true.mp hword
      have hidentifier : token.kind = .identifier := beq_iff_eq.mp (Bool.and_eq_true_iff.mp hword).1
      obtain ⟨htoken, hothers⟩ := h.of_token hends (by simp [hidentifier])
      refine ⟨first + 1, Nat.le_succ _, hothers, fun place hle hlt => ?_⟩
      obtain rfl : place = first := by omega
      simp [htoken, Token.isMemberName, Token.isPropertyName, hidentifier]

theorem Derived.beginsMethod (hends : tokens.last.kind = .endOfInput) {isStatic isAccessor : Bool}
    {static accessor : List Constituent} {key opening : Token}
    (hstatic : Marked (Modifier ["static"]) isStatic static)
    (haccessor : Marked (Modifier ["get", "set"]) isAccessor accessor)
    (hkey : key.isMemberName = true) (hopening : opening.kind = .openParen)
    (h : Derived tokens keeps first last
      (static ++ (accessor ++ Constituent.token key :: .ahead opening :: others))) :
    BeginsMethod tokens first last := by
  obtain ⟨second, hfirst, hsecond, hstatics⟩ := h.of_modifier hends hstatic
  obtain ⟨name, hname, hthird, haccessors⟩ := hsecond.of_modifier hends haccessor
  cases hthird with
  | token hahead =>
      have hlast := hahead.le
      cases hahead with
      | ahead hvalue =>
          have hnext : tokens.after name = name + 1 :=
            TokenStream.after_eq_of_next hends (by simp [hopening])
          rw [hnext] at hopening hlast
          refine ⟨name, by omega, by omega, hopening, fun place hle hplace => ?_⟩
          by_cases hbefore : place < second
          · exact hstatics place hle hbefore
          · by_cases hword : place < name
            · exact haccessors place (by omega) hword
            · obtain rfl : place = name := by omega
              exact hkey

end Places

theorem Restricted.widen {before after : Nat} {expr : Expr}
    (h : Restricted tokens first last (.expr expr)) (hbefore : before ≤ first)
    (hafter : last ≤ after) : Restricted tokens before after (.expr expr) := by
  cases expr with
  | update operator operand leading span =>
      cases leading with
      | true => trivial
      | false =>
          obtain ⟨hline, place, hfirst, hlast, htoken⟩ := h
          exact ⟨hline, place, by omega, by omega, htoken⟩
  | _ => trivial

theorem Production.restricted (hends : tokens.last.kind = .endOfInput) {node : Node}
    (hproduction : Production node parts)
    (h : Derived tokens (Restricted tokens) first last parts) :
    Restricted tokens first last node := by
  cases hproduction with
  | trailingUpdate hoperator hline =>
      cases h with
      | node _ _ hoperand hlast =>
          have hkind := hoperator.update_kind
          obtain ⟨htoken, hnil⟩ := hlast.of_token hends (by rcases hkind with h | h <;> simp [h])
          cases hnil
          exact ⟨hline, _, hoperand.le, Nat.lt_succ_self _, htoken⟩
  | group hgroup =>
      cases hgroup with
      | intro hopening hclosing =>
          obtain ⟨-, hinner⟩ := h.of_token hends (by simp [hopening])
          cases hinner with
          -- The parentheses stand around the places that are known for the expression.
          | node _ hkeeps _ hlast => exact hkeeps.widen (Nat.le_succ _) hlast.le
  | expression hending => exact fun _ => h.terminated hends hending [.node _]
  | varDeclaration _ _ hending => exact fun _ => h.terminated hends hending (.token _ :: _)
  | plainResult _ hending => exact fun _ => h.terminated hends hending [.token _]
  | result hword hline hending =>
      refine ⟨?_, h.terminated hends hending [.token _, .ahead _, .node _]⟩
      obtain ⟨-, hvalue⟩ := h.of_token hends hword.ne_end
      cases hvalue with
      | ahead => exact hline
  | imports _ _ hending => exact fun _ => h.terminated hends hending (.token _ :: _)
  | leave _ _ hending => exact fun _ => h.terminated hends hending (.token _ :: _)
  | skip _ _ hending => exact fun _ => h.terminated hends hending (.token _ :: _)
  | raise _ hending => exact fun _ => h.terminated hends hending [.token _, .node _]
  | member hstatic haccessor hkey hvalue =>
      cases hvalue with
      | method hopening =>
          exact .inl (Derived.beginsMethod hends hstatic haccessor hkey hopening (by simpa using h))
      | field _ hending =>
          rw [← List.append_assoc] at h
          exact .inr (h.terminated hends hending _)
  | unary | leadingUpdate => trivial
  | _ => first | trivial | exact fun h => nomatch h

section Neighbours

/-- A token that begins something ends neither a block nor the text. -/
def Begins (token : Token) : Prop :=
  token.kind ≠ .closeCurly ∧ token.kind ≠ .endOfInput

/-- The constituents with which an expression or a statement can begin. -/
def Initial : Constituent → Prop
  | .token word => Begins word
  | .node (.expr _) | .node (.stmt _) | .node (.block _) | .bare (.parameter _) => True
  | _ => False

theorem begins_of_kind {token : Token} {kind : TokenKind} (hkind : token.kind = kind)
    (hbegins : kind ≠ .closeCurly ∧ kind ≠ .endOfInput) : Begins token := by
  rwa [Begins, hkind]

theorem OpensStmt.begins {form : StatementForm} {token : Token} (h : OpensStmt form token) :
    Begins token := by
  constructor <;> intro hkind <;> rw [OpensStmt, hkind] at h <;> cases h

theorem Starts.begins {form : LeadingForm} {token : Token} (h : Starts form token) :
    Begins token := by
  constructor <;> intro hkind <;> rw [Starts, hkind] at h <;> cases h

theorem Enclosed.initial {opening closing : TokenKind} {mark : Token → Prop} {nodes : List Node}
    (h : Enclosed opening closing mark nodes parts)
    (hbegins : opening ≠ .closeCurly ∧ opening ≠ .endOfInput) :
    ∃ part more, parts ++ others = part :: more ∧ Initial part := by
  obtain ⟨hopening, _, _⟩ := h
  exact ⟨_, _, rfl, (begins_of_kind hopening hbegins : Begins _)⟩

/-- What an expression, a statement or a block is written as begins with
something with which one of them can begin. -/
theorem Production.initial {node : Node} (h : Production node parts)
    (hnode : Initial (.node node)) : ∃ part more, parts = part :: more ∧ Initial part := by
  have htoken {token : Token} {more : List Constituent} (hbegins : Begins token) :
      ∃ part rest, .token token :: more = part :: rest ∧ Initial part := ⟨_, _, rfl, hbegins⟩
  cases h with
  | number hkind | string hkind | plainTemplate hkind | null hkind | symbol hkind | regex hkind
  | template hkind | spread hkind | new hkind | plainNew hkind | empty hkind | block hkind
  | labeled hkind => exact htoken (begins_of_kind hkind (by decide))
  | boolean hkind => exact htoken (begins_of_kind hkind (by split <;> decide))
  | exportList hkind =>
      rcases hkind with hkind | hkind <;> exact htoken (begins_of_kind hkind (by decide))
  | functionExpr hword | classExpr hword | unary hword | leadingUpdate hword =>
      exact htoken hword.begins
  | varDeclaration hword | conditionalStmt hword | whileLoop hword | doWhile hword | forLoop hword
  | forEach hword | function hword | plainResult hword | result hword | imports hword
  | exports hword | leave hword | skip hword | guarded hword | raise hword | switch hword
  | classStmt hword => exact htoken hword.begins
  | array hparts | object hparts =>
      rw [← List.append_nil parts]
      exact hparts.initial (by decide)
  | method hparameters | arrow hparameters => exact hparameters.initial (by decide)
  | group hcondition =>
      obtain ⟨hopening, _⟩ := hcondition
      exact htoken (begins_of_kind hopening (by decide))
  | nameArrow | trailingUpdate | binary | assignment | conditional | sequence | call | access
  | index | expression | blockStmt => exact ⟨_, _, rfl, trivial⟩
  | _ => exact hnode.elim

theorem Derived.begins {part : Constituent} (h : Derived tokens keeps first last (part :: others))
    (hpart : Initial part) : Begins (tokens.get first) := by
  generalize hparts : part :: others = parts at h
  induction h generalizing part others with
  | nil => cases hparts
  | token => cases hparts; exact hpart
  | ahead => cases hparts; exact hpart.elim
  | node hproduction _ _ _ ihparts =>
      cases hparts
      obtain ⟨part, more, rfl, hinitial⟩ := hproduction.initial hpart
      exact ihparts hinitial rfl
  | bare hproduction _ _ ihparts =>
      cases hparts
      cases hproduction with
      | @parameter name span =>
          exact ihparts (show Initial (.node (.expr (.symbol name span))) from trivial) rfl
      | _ => exact hpart.elim

theorem Derived.apart {stmt next : Stmt} {front back : List Constituent}
    (hwants : stmt.wantsSemicolon = true)
    (h : Derived tokens (Restricted tokens) first last
      (front ++ Constituent.node (.stmt stmt) :: .node (.stmt next) :: back)) :
    ∃ start place stop, Derived tokens (Restricted tokens) start place [.node (.stmt stmt)] ∧
      Derived tokens (Restricted tokens) place stop [.node (.stmt next)] ∧
      ((∃ semicolon, place = semicolon + 1 ∧ (tokens.get semicolon).kind = .semicolon) ∨
        (tokens.get place).newlineBefore = true) := by
  obtain ⟨start, -, hfront⟩ := h.split
  cases hfront with
  | @node _ place _ _ _ _ hproduction hkeeps hstmt hothers =>
      have hbegins : Begins (tokens.get place) := hothers.begins trivial
      obtain ⟨stop, hnext, -⟩ := hothers.uncons
      have hterminated : Terminated tokens start place := by
        cases stmt with
        | result value? span =>
            cases value? with
            | none => exact hkeeps hwants
            | some value => exact hkeeps.2
        | _ => exact hkeeps hwants
      refine ⟨start, place, stop, .node hproduction hkeeps hstmt .nil, hnext, ?_⟩
      rcases hterminated with ⟨semicolon, -, hplace, hkind⟩ | hbrace | hend | hline
      · exact .inl ⟨semicolon, hplace, hkind⟩
      · exact absurd hbrace hbegins.1
      · exact absurd hend hbegins.2
      · exact .inr hline

end Neighbours

section Rows

theorem Production.statements {node : Node} (h : Production node parts) :
    ∃ front back, parts = front ++ stmts node.statements ++ back := by
  cases h with
  | block => exact ⟨[.token _], [.token _], rfl⟩
  | @clause colon _ _ head =>
      exact ⟨head ++ [Constituent.token colon], [], by simp [Node.statements]⟩
  | _ => exact ⟨[], _, rfl⟩

theorem BareProduction.statements {node : Node} (h : BareProduction node parts) :
    node.statements.length ≤ 1 := by
  cases h <;> simp [Node.statements]

theorem Written.statements {node : Node} (h : Written tokens keeps node) {stmt next : Stmt}
    {before after : List Stmt} (hstmts : node.statements = before ++ stmt :: next :: after) :
    ∃ first last front back, Derived tokens keeps first last
      (front ++ Constituent.node (.stmt stmt) :: .node (.stmt next) :: back) := by
  rcases h with ⟨first, last, hnode | hbare⟩ | ⟨name, rfl⟩
  · cases hnode with
    | @node _ middle _ _ _ _ hproduction _ hparts =>
        obtain ⟨front, back, rfl⟩ := hproduction.statements
        refine ⟨first, middle, front ++ stmts before, stmts after ++ back, ?_⟩
        simpa [hstmts] using hparts
  · cases hbare with
    | bare hproduction =>
        have hlength := hproduction.statements
        simp [hstmts] at hlength
        omega
  · simp [Node.statements] at hstmts

end Rows

end Grammar

namespace Script

open Grammar Grammar.Constituent

variable {file : String} {tokens : List Token} {script : Script}

/-- A script is derived from its tokens in such a way that every node keeps to
what is asked of line breaks and semicolons. -/
theorem restricted (h : ofTokens file tokens = .ok script) :
    ∃ last, ((TokenStream.ofList tokens).get last).kind = .endOfInput ∧
      Derived (.ofList tokens) (Restricted (.ofList tokens)) 0 last (stmts script.root.body) := by
  obtain ⟨last, hlast, hderivation⟩ := derivation h
  refine ⟨last, hlast, hderivation.keep fun hproduction hparts => ?_⟩
  exact hproduction.restricted (closed_ofList file tokens).ends hparts

theorem written_of_inside {keeps : Nat → Nat → Node → Prop} {last : Nat} {node : Node}
    (h : Derived (.ofList tokens) keeps 0 last (stmts script.root.body))
    (hinside : Node.Inside node (.block script.root)) :
    node = .block script.root ∨ Written (.ofList tokens) keeps node := by
  cases hinside with
  | self => exact .inl rfl
  | deeper hchild hinside =>
      obtain ⟨stmt, hstmt, rfl⟩ := List.mem_map.mp hchild
      exact .inr (h.inside (.inl (List.mem_map_of_mem hstmt)) hinside)

/-- The tokens of a script derive its tree so that line breaks and semicolons are
respected at every depth.  An increment behind its operand is on the line of the
operand's last token, and two statements in a row are kept apart by a semicolon or a
new line, if the first one wants a semicolon. -/
theorem lines_restricted (h : ofTokens file tokens = .ok script) :
    (∃ last, ((TokenStream.ofList tokens).get last).kind = .endOfInput ∧
      Derived (.ofList tokens) (Restricted (.ofList tokens)) 0 last (stmts script.root.body)) ∧
    (∀ node, Node.Inside node (.block script.root) →
      node = .block script.root ∨ Written (.ofList tokens) (Restricted (.ofList tokens)) node) ∧
    (∀ operator operand span,
      Node.Inside (.expr (.update operator operand false span)) (.block script.root) →
        operator.newlineBefore = false) ∧
    ∀ outer before stmt next after, Node.Inside outer (.block script.root) →
      outer.statements = before ++ stmt :: next :: after → stmt.wantsSemicolon = true →
        ∃ start place stop,
          Derived (.ofList tokens) (Restricted (.ofList tokens)) start place
            [.node (.stmt stmt)] ∧
          Derived (.ofList tokens) (Restricted (.ofList tokens)) place stop
            [.node (.stmt next)] ∧
          ((∃ semicolon, place = semicolon + 1 ∧
            ((TokenStream.ofList tokens).get semicolon).kind = .semicolon) ∨
            ((TokenStream.ofList tokens).get place).newlineBefore = true) := by
  obtain ⟨last, hlast, hderived⟩ := restricted h
  have hwritten {node : Node} (hinside : Node.Inside node (.block script.root)) :=
    written_of_inside hderived hinside
  refine ⟨⟨last, hlast, hderived⟩, fun node => hwritten, ?_, ?_⟩
  · intro operator operand span hinside
    rcases hwritten hinside with heq | ⟨first, last, hnode | hbare⟩ | ⟨name, heq⟩
    · cases heq
    · cases hnode with
      | node _ hkeeps => exact hkeeps.1
    · cases hbare with
      | bare hproduction => cases hproduction
    · cases heq
  · intro outer before stmt next after hinside hstmts hwants
    rcases hwritten hinside with rfl | hwritten
    · have hbody : script.root.body = before ++ stmt :: next :: after := hstmts
      rw [hbody, stmts, List.map_append] at hderived
      exact hderived.apart hwants
    · obtain ⟨_, _, _, _, hrow⟩ := hwritten.statements hstmts
      exact hrow.apart hwants

/-- An increment on a new line is not read with the name in front of it. -/
theorem lines_restricted_before_increment :
    ∃ script, ofTokens "increment.js"
        [⟨.identifier, "a", ⟨0, 1⟩, false⟩, ⟨.plusPlus, "++", ⟨2, 4⟩, true⟩,
          ⟨.identifier, "b", ⟨4, 5⟩, false⟩] = .ok script ∧ script.root.body.length = 2 ∧
      ∀ operator operand span,
        Node.Inside (.expr (.update operator operand false span)) (.block script.root) →
          operator.newlineBefore = false := by
  obtain ⟨script, hread, hlength⟩ : ∃ script, ofTokens "increment.js"
      [⟨.identifier, "a", ⟨0, 1⟩, false⟩, ⟨.plusPlus, "++", ⟨2, 4⟩, true⟩,
        ⟨.identifier, "b", ⟨4, 5⟩, false⟩] = .ok script ∧ script.root.body.length = 2 :=
    ⟨_, rfl, rfl⟩
  exact ⟨script, hread, hlength, (lines_restricted hread).2.2.1⟩

end Script

end ScriptKinds
