import ScriptKinds.Grammar.Expression
import ScriptKinds.Proofs.Grammar.SpellingRules

namespace ScriptKinds.Grammar

open Reader

def PatternParts.target (parts : PatternParts) : Target :=
  .pattern parts.elements parts.nestedDefaults

/-- The readers of expressions, statements and patterns spell what they read. -/
structure Nonterminals.Spelling (input : Input) (nt : Nonterminals) : Prop where
  expr : ∀ power, Spells input anything [] (nt.expr power) (asNode .expr)
  stmt : Spells input anything [] nt.stmt (asNode .stmt)
  pattern : Spells input anything [] nt.pattern (asNode fun parts => .target parts.target)

variable {input : Input} {nt : Nonterminals} {now : Token → Prop}

section Bindings

section Patterns

variable {tokens : TokenStream} {first last : Nat}

theorem elements_asNodes (exprs : List Expr) :
    (asNodes .expr exprs).filterMap Item.element? = [] := by
  simp [List.filterMap_map, Function.comp_def, Item.element?]

theorem exprs_asNodes (exprs : List Expr) :
    (asNodes .expr exprs).filterMap Item.expr? = exprs := by
  simp [List.filterMap_map, Function.comp_def, Item.expr?]

theorem spelled_pattern {kids : List Item} {parts : PatternParts}
    (h : Spelled tokens first last kids) (helements : kids.filterMap Item.element? = parts.elements)
    (hexprs : kids.filterMap Item.expr? = parts.nestedDefaults) :
    Spelled tokens first last [.node (.target parts.target)] :=
  .node rfl ⟨helements, hexprs⟩ trivial h (.nil (Nat.le_refl _))

theorem opened_pattern {parts : PatternParts} {others : List Item}
    (h : Spelled tokens first last (.node (.target parts.target) :: others)) :
    ∃ kids, kids.filterMap Item.element? = parts.elements ∧
      kids.filterMap Item.expr? = parts.nestedDefaults ∧
      Spelled tokens first last (kids ++ others) := by
  cases h with
  | node hled hcomposed hinit hkids hothers =>
      obtain rfl := hled
      exact ⟨_, hcomposed.1, hcomposed.2, hkids.append hothers⟩

theorem spelled_element {word : Token} {name : Identifier} {default? : Option Expr}
    (hword : word.kind ≠ .endOfInput)
    (h : Spelled tokens first last (.token word :: asNodes .expr default?.toList)) :
    Spelled tokens first last
      [.node (.target (PatternParts.target ⟨[⟨name, default?, word.span⟩], []⟩))] := by
  have helement : Spelled tokens first last [.node (.element ⟨name, default?, word.span⟩)] := by
    refine .node ⟨word, rfl, hword, rfl⟩ rfl trivial ?_ (.nil (Nat.le_refl _))
    simpa [Node.children, Function.comp_def] using h
  exact spelled_pattern helement rfl rfl

theorem spelled_join {parts : List PatternParts}
    (h : Spelled tokens first last (asNodes (fun parts => .target parts.target) parts)) :
    Spelled tokens first last [.node (.target (PatternParts.join parts).target)] := by
  suffices hkids : ∃ kids, kids.filterMap Item.element? = (PatternParts.join parts).elements ∧
      kids.filterMap Item.expr? = (PatternParts.join parts).nestedDefaults ∧
      Spelled tokens first last kids by
    obtain ⟨kids, helements, hexprs, hspelled⟩ := hkids
    exact spelled_pattern hspelled helements hexprs
  induction parts generalizing first with
  | nil => exact ⟨[], rfl, rfl, h⟩
  | cons part others ih =>
      obtain ⟨middle, hpart, hothers⟩ :
          ∃ middle, Spelled tokens first middle [.node (.target part.target)] ∧ _ := h.split
      obtain ⟨kids, helements, hexprs, hkids⟩ := opened_pattern hpart
      obtain ⟨more, hmoreElements, hmoreExprs, hmore⟩ := ih hothers
      rw [List.append_nil] at hkids
      refine ⟨kids ++ more, ?_, ?_, hkids.append hmore⟩
      · rw [List.filterMap_append, helements, hmoreElements]
        rfl
      · rw [List.filterMap_append, hexprs, hmoreExprs]
        rfl

end Patterns

theorem spells_readDefault (h : nt.Spelling input) :
    Spells input now [] (readDefault nt) (fun value? => asNodes .expr value?.toList) :=
  .skip fun _ => .optional fun _ => h.expr .comma

theorem spells_readName {α : Type} {held : List Item} {expectation : String}
    {next : Identifier × Span → Reader α} {items : α → List Item}
    (h : ∀ token id, token.kind = .identifier →
      Spells input anything (held ++ [.token token]) (next (⟨token.text, id⟩, token.span)) items) :
    Spells input now held (readName (failHere expectation) >>= next) items := by
  unfold readName
  simp only [bind_assoc, pure_bind]
  exact .expect fun token hkind => .skip fun id => h token id hkind

instance (failure : Reader Token) [Forward failure] : Forward (readName failure) := by
  unfold readName
  infer_instance

theorem spells_readPatternElement (h : nt.Spelling input) :
    Spells input now [] (readPatternElement nt) (asNode fun parts => .target parts.target) := by
  unfold readPatternElement
  refine .skip fun nested => .ite (fun _ => ?_) (fun _ => ?_)
  · refine .read h.pattern fun inner => .read (spells_readDefault h) fun default? => .pure ?_
    intro first last hheld
    change Spelled _ _ _ (.node _ :: asNodes .expr default?.toList) at hheld
    obtain ⟨kids, helements, hexprs, hkids⟩ := opened_pattern hheld
    refine spelled_pattern hkids ?_ ?_
    · rw [List.filterMap_append, helements, elements_asNodes]
      exact List.append_nil _
    · rw [List.filterMap_append, hexprs, exprs_asNodes]
  · refine spells_readName fun token id hkind => .read (spells_readDefault h) fun default? => ?_
    exact .pure fun first last hheld => spelled_element (by simp [hkind]) hheld

theorem spells_readArrayPatternItem (h : nt.Spelling input) :
    Spells input now [] (readArrayPatternItem nt) (asNodes fun parts => .target parts.target) := by
  unfold readArrayPatternItem
  refine .skip fun hole => .ite (fun _ => .same rfl) (fun _ => ?_)
  refine .skip fun _ => .read (spells_readPatternElement h) fun parts => ?_
  exact .skip fun _ => .same rfl

theorem spells_readPatternProperty (h : nt.Spelling input) :
    Spells input now [] (readPatternProperty nt) (asNode fun parts => .target parts.target) := by
  unfold readPatternProperty
  refine .see fun key _ => .ite (fun _ => .take ?_) (fun _ => .fail)
  rintro key rfl
  refine .skip fun renamed => .ite (fun _ => ?_) (fun _ => ?_)
  · exact .forget (spells_readPatternElement h)
  · refine .ite (fun hkind => ?_) (fun _ => .failHere)
    refine .skip fun id => .read (spells_readDefault h) fun default? => .pure ?_
    intro first last hheld
    exact spelled_element (by simp [beq_iff_eq.mp hkind]) hheld

theorem spells_readObjectPatternItem (h : nt.Spelling input) :
    Spells input now [] (readObjectPatternItem nt) (asNodes fun parts => .target parts.target) := by
  unfold readObjectPatternItem
  refine .skip fun rest => .ite (fun _ => ?_) (fun _ => ?_)
  · exact .read (spells_readPatternElement h) fun parts => .skip fun _ => .same rfl
  · exact .read (spells_readPatternProperty h) fun parts => .skip fun _ => .same rfl

theorem spells_readPattern (h : nt.Spelling input) :
    Spells input now [] (readPattern nt) (asNode fun parts => .target parts.target) := by
  unfold readPattern
  refine .skip fun opening => .ite (fun _ => ?_) (fun _ => ?_)
  · refine .read (.collectUntil (spells_readObjectPatternItem h)) fun parts => ?_
    exact .skip fun _ => .pure fun _ _ => spelled_join
  · refine .read (.collectUntil (spells_readArrayPatternItem h)) fun parts => ?_
    exact .skip fun _ => .pure fun _ _ => spelled_join

theorem spells_readTarget (h : nt.Spelling input) (expectation : String) :
    Spells input now [] (readTarget nt expectation) (asNode .target) := by
  unfold readTarget
  refine .skip fun nested => .ite (fun _ => ?_) (fun _ => ?_)
  · exact .read h.pattern fun parts => .same rfl
  · refine spells_readName fun token id hkind => ?_
    exact .node ⟨token, rfl, by simp [hkind]⟩ rfl trivial rfl

theorem spells_readParameter (h : nt.Spelling input) :
    Spells input now [] (readParameter nt) (asNodes .parameter) := by
  refine .look fun token _ => .skip fun rest => .read (spells_readTarget h _) fun target => ?_
  refine .read (spells_readDefault h) fun default? => .span fun stop => .skip fun _ => ?_
  refine .single (.node ⟨token, rfl, rfl⟩ rfl trivial ?_)
  simp [Node.children, Function.comp_def]

theorem spells_readParameters (h : nt.Spelling input) :
    Spells input now [] (readParameters nt) (asNodes .parameter) :=
  .skip fun _ => .read (.collectUntil (spells_readParameter h)) fun _ => .skip fun _ => .same rfl

end Bindings

section Bodies

theorem spells_readBlock (h : nt.Spelling input) :
    Spells input now [] (readBlock nt) (asNode .block) := by
  have hitem : Spells input anything [] (return [← nt.stmt]) (asNodes .stmt) :=
    .read h.stmt fun stmt => .same rfl
  refine .skip fun opening => .read (.collectUntil hitem) fun body => .skip fun _ => ?_
  refine .skip fun id => .skip fun span => .node rfl rfl trivial ?_
  simp [Node.children, Function.comp_def]

/-- The statement that stands for the value of an arrow function is spelled by
the value. -/
theorem spells_readArrowBody (h : nt.Spelling input) :
    Spells input now [] (readArrowBody nt) (asNode .block) := by
  unfold readArrowBody
  refine .skip fun block => .ite (fun _ => spells_readBlock h) (fun _ => ?_)
  refine .read (h.expr .comma) fun value => .skip fun id => .pure fun first last hheld => ?_
  have hresult : Spelled input.tokens first last
      [.node (.stmt (.result (some value) value.span))] := hheld.plain rfl rfl trivial
  exact hresult.plain rfl rfl trivial

theorem spells_readFunction (h : nt.Spelling input) {leads : List Item} (start : Nat)
    (name? : Option Identifier)
    (hled : ∀ parameters body stop,
      (Node.expr (.function name? parameters body false ⟨start, stop⟩)).LedBy leads) :
    Spells input now leads (readFunction nt start name?) (asNode .expr) := by
  refine .read (spells_readParameters h) fun parameters => ?_
  refine .read (spells_readBlock h) fun body => .span fun stop => ?_
  refine .node (hled parameters body stop) rfl trivial ?_
  simp [Node.children, Expr.children, Function.comp_def]

instance : Forward readOptionalName := by
  unfold readOptionalName
  infer_instance

instance (words : List String) : Forward (skipModifier words) := by
  unfold skipModifier
  infer_instance

theorem spells_readMemberValue (h : nt.Spelling input) (key : Token) :
    Spells input now [] (readMemberValue nt key) (fun value? => asNodes .expr value?.toList) := by
  unfold readMemberValue
  refine .skip fun method => .ite (fun _ => ?_) (fun _ => ?_)
  · refine .read (spells_readFunction h _ none fun _ _ _ => rfl) fun value => .same rfl
  · exact .read (spells_readDefault h) fun value? => .skip fun _ => .same rfl

theorem spells_readMember (h : nt.Spelling input) :
    Spells input now [] (readMember nt) (asNodes .member) := by
  unfold readMember
  refine .skip fun empty => .ite (fun _ => .same rfl) (fun _ => ?_)
  refine .skip fun start => .skip fun isStatic => .skip fun _ => .skip fun key => ?_
  refine .ite (fun _ => .skip fun _ => ?_) (fun _ => .fail)
  refine .read (spells_readMemberValue h key) fun value? => .skip fun span => ?_
  refine .single (.node rfl rfl trivial ?_)
  simp [Node.children, Function.comp_def]

theorem spells_readClassTail (h : nt.Spelling input) :
    Spells input now [] (readClassTail nt)
      (fun tail => asNodes .expr tail.1.toList ++ asNodes .member tail.2) := by
  refine .skip fun extended => .read (.optional fun _ => h.expr .unary) fun superclass? => ?_
  refine .skip fun _ => .read (.collectUntil (spells_readMember h)) fun members => ?_
  exact .skip fun _ => .same rfl

end Bodies

section Expressions

/-- A token that does not end the text. -/
def Proceeds (token : Token) : Prop :=
  token.kind ≠ .endOfInput

theorem spells_readPrimary : Spells input Proceeds [] readPrimary (asNode .expr) := by
  refine .take fun token hkind => ?_
  split
  · split
    · exact .forget (.node rfl rfl trivial rfl)
    · exact .fail
  · exact .skip fun id => .node ⟨token, rfl, hkind, rfl⟩ rfl trivial rfl
  all_goals first | exact .forget (.node rfl rfl trivial rfl) | exact .fail

instance (target : Expr) : Forward (checkAssignable target) := by
  unfold checkAssignable
  infer_instance

theorem spells_readArguments (h : nt.Spelling input) :
    Spells input now [] (readArguments nt) (asNodes .expr) := by
  refine .skip fun _ => .read (.collectUntil ?_) fun arguments => .skip fun _ => .same rfl
  exact .read (h.expr .comma) fun argument => .skip fun _ => .same rfl

theorem spells_readElement (h : nt.Spelling input) :
    Spells input now [] (readElement nt) (asNodes .expr) := by
  unfold readElement
  refine .skip fun hole => .ite (fun _ => .same rfl) (fun _ => ?_)
  exact .read (h.expr .comma) fun element => .skip fun _ => .same rfl

theorem spells_readArray (h : nt.Spelling input) :
    Spells input now [] (readArray nt) (asNode .expr) := by
  refine .skip fun opening => .read (.collectUntil (spells_readElement h)) fun elements => ?_
  refine .skip fun _ => .skip fun span => .node rfl rfl trivial ?_
  simp [Node.children, Expr.children, Function.comp_def]

theorem spells_readSpread (h : nt.Spelling input) :
    Spells input now [] (readSpread nt) (asNode .expr) :=
  .skip fun _ => .read (h.expr .comma) fun _ => .node rfl rfl trivial rfl

theorem spells_readPropertyValue (h : nt.Spelling input) (key : Token) :
    Spells input now [.token key] (readPropertyValue nt key) (asNode .expr) := by
  unfold readPropertyValue
  refine .skip fun valued => .ite (fun _ => .forget (h.expr .comma).anywhere) (fun _ => ?_)
  refine .skip fun method => .ite (fun _ => ?_) (fun _ => .ite (fun hkind => ?_) fun _ => .failHere)
  · exact .forget (spells_readFunction h _ none fun _ _ _ => rfl)
  · exact .skip fun id => .node ⟨key, rfl, by simp [beq_iff_eq.mp hkind], rfl⟩ rfl trivial rfl

theorem spells_readPropertyEntry (h : nt.Spelling input) :
    Spells input now [] (readPropertyEntry nt) (asNode .property) := by
  unfold readPropertyEntry
  refine .skip fun rest => .ite (fun _ => ?_) (fun _ => ?_)
  · exact .read (spells_readSpread h) fun value => .node rfl rfl trivial rfl
  · refine .see fun key _ => .ite (fun _ => .take ?_) (fun _ => .fail)
    rintro key rfl
    exact .seq (spells_readPropertyValue h key) fun value => .node rfl rfl trivial rfl

theorem spells_readProperty (h : nt.Spelling input) :
    Spells input now [] (readProperty nt) (asNodes .property) :=
  .read (spells_readPropertyEntry h) fun _ => .skip fun _ => .same rfl

theorem spells_readObject (h : nt.Spelling input) :
    Spells input now [] (readObject nt) (asNode .expr) := by
  refine .skip fun opening => .read (.collectUntil (spells_readProperty h)) fun properties => ?_
  refine .skip fun _ => .skip fun span => .node rfl rfl trivial ?_
  simp [Node.children, Expr.children, Function.comp_def]

/-- What spells the substitutions that have been read. -/
def substitutionItems (read : List String × List Expr) : List Item :=
  asNodes .expr read.2

theorem spells_readSubstitution (h : nt.Spelling input) (read : List String × List Expr) :
    Spells input now (substitutionItems read) (readSubstitution nt read)
      (Spells.againItems substitutionItems substitutionItems) := by
  refine .read (h.expr .none).anywhere fun substitution => .skip fun part => ?_
  have hread : substitutionItems read ++ asNode .expr substitution =
      substitutionItems (read.1 ++ [part.text], read.2 ++ [substitution]) := by
    simp [substitutionItems]
  refine .ite (fun _ => .skip fun _ => .same hread) (fun _ => ?_)
  exact .ite (fun _ => .skip fun _ => .same hread) (fun _ => .fail)

theorem spells_readTemplate (h : nt.Spelling input) :
    Spells input now [] (readTemplate nt) (asNode .expr) := by
  refine .skip fun head => .seq (.iterate (spells_readSubstitution h) ([head.text], [])) ?_
  intro read
  refine .skip fun span => .node rfl rfl trivial ?_
  simp [substitutionItems, Node.children, Expr.children, Function.comp_def]

theorem spells_readRegex : Spells input now [] readRegex (asNode .expr) := by
  refine .skip fun token => ?_
  split
  · exact .node rfl rfl trivial rfl
  · exact .breakOff

instance : Forward atArrowParameters :=
  ⟨fun h => by cases h; exact Nat.le_refl _⟩

theorem spells_readGroup (h : nt.Spelling input) :
    Spells input now [] (readGroup nt) (asNode .expr) := by
  unfold readGroup
  refine .skip fun arrow => .ite (fun _ => ?_) (fun _ => ?_)
  · refine .skip fun start => .read (spells_readParameters h) fun parameters => ?_
    refine .skip fun _ => .read (spells_readArrowBody h) fun body => .skip fun span => ?_
    refine .node rfl rfl trivial ?_
    simp [Node.children, Expr.children, Function.comp_def]
  · exact .skip fun _ => .read (h.expr .none) fun inner => .skip fun _ => .same rfl

theorem spells_readUnary (h : nt.Spelling input) :
    Spells input now [] (readUnary nt) (asNode .expr) :=
  .skip fun _ => .read (h.expr .unary) fun _ => .node rfl rfl trivial rfl

theorem spells_readLeadingUpdate (h : nt.Spelling input) :
    Spells input now [] (readLeadingUpdate nt) (asNode .expr) :=
  .skip fun _ => .read (h.expr .unary) fun _ => .skip fun _ => .node rfl rfl trivial rfl

theorem spells_readNew (h : nt.Spelling input) :
    Spells input now [] (readNew nt) (asNode .expr) := by
  refine .skip fun word => .read (h.expr .call) fun callee => .skip fun called => ?_
  refine .ite (fun _ => ?_) (fun _ => ?_)
  · refine .read (spells_readArguments h) fun arguments => .skip fun span => ?_
    refine .node rfl rfl trivial ?_
    simp [Node.children, Expr.children, Function.comp_def]
  · exact .given (.skip fun span => .node rfl rfl trivial rfl)

theorem spells_readFunctionExpr (h : nt.Spelling input) :
    Spells input Proceeds [] (readFunctionExpr nt) (asNode .expr) := by
  refine .take fun word hword => .skip fun name? => ?_
  cases name? with
  | none => exact .forget (spells_readFunction h _ none fun _ _ _ => rfl)
  | some name => exact spells_readFunction h _ (some name) fun _ _ _ => ⟨word, rfl, hword, rfl⟩

theorem spells_readClassExpr (h : nt.Spelling input) :
    Spells input Proceeds [] (readClassExpr nt) (asNode .expr) := by
  refine .take fun word hword => .skip fun name? => ?_
  cases name? with
  | none =>
      refine .forget (.read (spells_readClassTail h) fun tail => .skip fun span => ?_)
      refine .node rfl rfl trivial ?_
      simp [Node.children, Expr.children, Function.comp_def]
  | some name =>
      refine .read (spells_readClassTail h) fun tail => .span fun stop => ?_
      refine .node ⟨word, rfl, hword, rfl⟩ rfl trivial ?_
      simp [Node.children, Expr.children, Function.comp_def]

theorem spells_readLeading (h : nt.Spelling input) (form : LeadingForm) :
    Spells input Proceeds [] (readLeading nt form) (asNode .expr) := by
  cases form with
  | primary => exact spells_readPrimary
  | template => exact spells_readTemplate h
  | regex => exact spells_readRegex
  | array => exact spells_readArray h
  | object => exact spells_readObject h
  | function => exact spells_readFunctionExpr h
  | classDef => exact spells_readClassExpr h
  | unary => exact spells_readUnary h
  | spread => exact spells_readSpread h
  | update => exact spells_readLeadingUpdate h
  | group => exact spells_readGroup h
  | new => exact spells_readNew h

theorem spells_readSequence (h : nt.Spelling input) (left : Expr) :
    Spells input now (asNode .expr left) (readSequence nt left) (asNode .expr) := by
  refine .skip fun _ => .read (.separated (h.expr .comma)) fun others => .skip fun span => ?_
  refine .node rfl rfl trivial ?_
  simp [Node.children, Expr.children, Function.comp_def]

theorem spells_readAssignment (h : nt.Spelling input) (left : Expr) :
    Spells input now (asNode .expr left) (readAssignment nt left) (asNode .expr) := by
  refine .skip fun _ => .skip fun operator => .read (h.expr .comma) fun value => ?_
  exact .node rfl rfl trivial rfl

theorem spelled_arrowParameter {tokens : TokenStream} {first last : Nat} {name : Identifier}
    {span : Span} {others : List Item}
    (h : Spelled tokens first last (.node (.expr (.symbol name span)) :: others)) :
    Spelled tokens first last
      (.node (.parameter ⟨.name name, none, false, span⟩) :: others) := by
  cases h with
  | node hled hcomposed hinit hkids hothers =>
      obtain ⟨word, rfl, hword, hstart⟩ := hled
      obtain rfl := hcomposed
      cases hkids with
      | token hfirst hnext hstrict hrest =>
          have htoken := Spelled.token (Nat.le_refl _) hnext hstrict hrest
          have htarget : Spelled tokens _ _ [.node (.target (.name name))] :=
            .whole htoken ⟨_, rfl, hword⟩ rfl trivial
          exact .node ⟨_, rfl, hstart⟩ rfl trivial (.ahead hfirst htarget) hothers

theorem spells_readArrow (h : nt.Spelling input) (left : Expr) :
    Spells input now (asNode .expr left) (readArrow nt left) (asNode .expr) := by
  unfold readArrow
  split
  · refine .skip fun _ => .read (spells_readArrowBody h) fun body => .skip fun span => .pure ?_
    intro first last hheld
    exact (spelled_arrowParameter hheld).plain rfl rfl trivial
  · exact .fail

theorem spells_readConditional (h : nt.Spelling input) (left : Expr) :
    Spells input now (asNode .expr left) (readConditional nt left) (asNode .expr) := by
  refine .skip fun _ => .read (h.expr .comma) fun consequent => .skip fun _ => ?_
  exact .read (h.expr .comma) fun alternate => .node rfl rfl trivial rfl

theorem spells_readBinary (h : nt.Spelling input) (power : Power) (left : Expr) :
    Spells input now (asNode .expr left) (readBinary nt power left) (asNode .expr) :=
  .skip fun _ => .read (h.expr power) fun _ => .node rfl rfl trivial rfl

theorem spells_readTrailingUpdate (left : Expr) :
    Spells input now (asNode .expr left) (readTrailingUpdate left) (asNode .expr) :=
  .skip fun _ => .skip fun _ => .node rfl rfl trivial rfl

theorem spells_readCall (h : nt.Spelling input) (left : Expr) :
    Spells input now (asNode .expr left) (readCall nt left) (asNode .expr) := by
  refine .read (spells_readArguments h) fun arguments => .skip fun span => ?_
  refine .node rfl rfl trivial ?_
  simp [Node.children, Expr.children, Function.comp_def]

theorem spells_readMemberAccess (left : Expr) :
    Spells input now (asNode .expr left) (readMemberAccess left) (asNode .expr) := by
  refine .skip fun _ => .skip fun name => .ite (fun _ => .skip fun _ => ?_) (fun _ => .fail)
  exact .skip fun span => .node rfl rfl trivial rfl

theorem spells_readIndex (h : nt.Spelling input) (left : Expr) :
    Spells input now (asNode .expr left) (readIndex nt left) (asNode .expr) := by
  refine .skip fun _ => .read (h.expr .none) fun index => .skip fun _ => .skip fun span => ?_
  exact .node rfl rfl trivial rfl

theorem spells_readTrailing (h : nt.Spelling input) (left : Expr) (power : Power)
    (form : TrailingForm) :
    Spells input now (asNode .expr left) (readTrailing nt left power form) (asNode .expr) := by
  cases form with
  | sequence => exact spells_readSequence h left
  | assignment => exact spells_readAssignment h left
  | arrow => exact spells_readArrow h left
  | conditional => exact spells_readConditional h left
  | binary => exact spells_readBinary h power left
  | exponent => exact spells_readBinary h .multiplicative left
  | update => exact spells_readTrailingUpdate left
  | call => exact spells_readCall h left
  | member => exact spells_readMemberAccess left
  | index => exact spells_readIndex h left

theorem spells_readContinuation (h : nt.Spelling input) (power : Power) (left : Expr) :
    Spells input now (asNode .expr left) (readContinuation nt power left)
      (Spells.againItems (asNode .expr) (asNode .expr)) := by
  refine .see_input fun token _ => .at_input ?_
  split
  · exact .same rfl
  · split
    · exact .same rfl
    · exact .seq (spells_readTrailing h left _ _).to_input fun _ => .same rfl

theorem spells_readExpr (h : nt.Spelling input) (power : Power) :
    Spells input now [] (readExpr nt power) (asNode .expr) := by
  refine .of_closed fun hclosed => .see_input fun token _ => .at_input ?_
  split
  · exact .to_input .fail
  · rename_i form hform
    have hproceeds : Proceeds token := by
      intro hkind
      rw [hkind, hclosed.leading] at hform
      cases hform
    have hleading : Spells input (· = token) [] (readLeading nt form) (asNode .expr) :=
      .given_now (fun _ hsame => hsame ▸ hproceeds) (spells_readLeading h form)
    exact .seq hleading.to_input fun left =>
      .to_input (.iterate (spells_readContinuation h power) left)

end Expressions

end ScriptKinds.Grammar
