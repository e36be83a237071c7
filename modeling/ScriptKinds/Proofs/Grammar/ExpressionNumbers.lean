import ScriptKinds.Grammar.Expression
import ScriptKinds.Proofs.Grammar.Carrying

namespace ScriptKinds.Grammar

open Reader

/-- The numbered nodes in the parts of a pattern. -/
def PatternParts.numbered (parts : PatternParts) : List Numbered :=
  (Target.pattern parts.elements parts.nestedDefaults).named ++
    (Target.pattern parts.elements parts.nestedDefaults).numbered

/-- The readers of expressions, statements and patterns carry numbers. -/
structure Nonterminals.Carrying (nt : Nonterminals) : Prop where
  expr : ∀ power, Carries 0 (nt.expr power) Expr.numbered
  stmt : Carries 0 nt.stmt Stmt.numbered
  pattern : Carries 0 nt.pattern PatternParts.numbered

/-- The numbered nodes of a target, with its names. -/
def targetNumbered (target : Target) : List Numbered :=
  target.named ++ target.numbered

variable {nt : Nonterminals}

section Bindings

theorem PatternParts.numbersOf_join (parts : List PatternParts) :
    numbersOf (PatternParts.join parts).numbered =
      numbersOf (parts.flatMap PatternParts.numbered) := by
  induction parts with
  | nil => rfl
  | cons part others ih =>
      rw [List.flatMap_cons, numbersOf_append, ← ih]
      simp only [join, numbered, Target.named, Target.names, Target.numbered, elementNumbered_eq,
        exprNumbered_eq, List.flatMap_cons, List.map_append, List.flatMap_append, numbersOf_append]
      abel

theorem carries_readDefault (h : nt.Carrying) :
    Carries 0 (readDefault nt) (fun default? => exprNumbered? default?) := by
  simp only [exprNumbered?_eq]
  exact .skip fun present => .optional (h.expr .comma)

theorem carries_readName (failure : Reader Token) [Silent failure] :
    Carries 0 (readName failure) (fun result => [.name result.1]) :=
  .skip fun token => .fresh fun id => .pure (by simp [Numbered.id])

@[simp] theorem PatternParts.numbered_single (name : Identifier) (default? : Option Expr)
    (span : Span) :
    PatternParts.numbered ⟨[⟨name, default?, span⟩], []⟩ =
      .name name :: exprNumbered? default? := by
  simp [PatternParts.numbered, Target.named, Target.names]

theorem carries_readPatternElement (h : nt.Carrying) :
    Carries 0 (readPatternElement nt) PatternParts.numbered := by
  unfold readPatternElement
  refine .skip fun nested => .ite (fun _ => ?_) (fun _ => ?_)
  · refine .read h.pattern fun inner => .read (carries_readDefault h) fun default? => .pure ?_
    simp [PatternParts.numbered, Target.named, Target.names, add_assoc]
  · refine .read (carries_readName _) fun result => ?_
    exact .read (carries_readDefault h) fun default? => .pure (by simp)

theorem carries_readArrayPatternItem (h : nt.Carrying) :
    Carries 0 (readArrayPatternItem nt) (·.flatMap PatternParts.numbered) := by
  unfold readArrayPatternItem
  refine .skip fun hole => .ite (fun _ => .pure (by simp)) (fun _ => ?_)
  refine .skip fun _ => .read (carries_readPatternElement h) fun parts => ?_
  exact .skip fun _ => .pure (by simp)

theorem carries_readPatternProperty (h : nt.Carrying) :
    Carries 0 (readPatternProperty nt) PatternParts.numbered := by
  unfold readPatternProperty
  refine .skip fun key => .ite (fun _ => ?_) (fun _ => .fail)
  refine .skip fun _ => .skip fun renamed => .ite (fun _ => ?_) (fun _ => ?_)
  · exact carries_readPatternElement h
  · refine .ite (fun _ => ?_) (fun _ => .failHere)
    refine .fresh fun id => .read (carries_readDefault h) fun default? => .pure ?_
    simp [Numbered.id]

theorem carries_readObjectPatternItem (h : nt.Carrying) :
    Carries 0 (readObjectPatternItem nt) (·.flatMap PatternParts.numbered) := by
  unfold readObjectPatternItem
  refine .skip fun rest => .ite (fun _ => ?_) (fun _ => ?_)
  · refine .read (carries_readPatternElement h) fun parts => ?_
    exact .skip fun _ => .pure (by simp)
  · refine .read (carries_readPatternProperty h) fun parts => ?_
    exact .skip fun _ => .pure (by simp)

theorem carries_readPattern (h : nt.Carrying) :
    Carries 0 (readPattern nt) PatternParts.numbered := by
  unfold readPattern
  refine .skip fun opening => .ite (fun _ => ?_) (fun _ => ?_)
  · refine .read (.collectUntil (carries_readObjectPatternItem h)) fun parts => ?_
    exact .skip fun _ => .pure (by rw [PatternParts.numbersOf_join, zero_add])
  · refine .read (.collectUntil (carries_readArrayPatternItem h)) fun parts => ?_
    exact .skip fun _ => .pure (by rw [PatternParts.numbersOf_join, zero_add])

theorem carries_readTarget (h : nt.Carrying) (expectation : String) :
    Carries 0 (readTarget nt expectation) targetNumbered := by
  unfold readTarget
  refine .skip fun nested => .ite (fun _ => ?_) (fun _ => ?_)
  · exact .read h.pattern fun parts => .pure (by rw [zero_add]; rfl)
  · exact .read (carries_readName _) fun result => .pure (by rw [zero_add]; rfl)

theorem carries_readParameter (h : nt.Carrying) :
    Carries 0 (readParameter nt) (·.flatMap Parameter.numbered) := by
  refine .skip fun start => .skip fun rest => .read (carries_readTarget h _) fun target => ?_
  refine .read (carries_readDefault h) fun default? => .skip fun span => .skip fun _ => .pure ?_
  simp only [targetNumbered, Parameter.numbered, List.flatMap_cons, List.flatMap_nil,
    numbersOf_append, numbersOf_nil]
  abel

theorem carries_readParameters (h : nt.Carrying) :
    Carries 0 (readParameters nt) (·.flatMap Parameter.numbered) := by
  refine .skip fun _ => .read (.collectUntil (carries_readParameter h)) fun parameters => ?_
  exact .skip fun _ => .pure (zero_add _)

end Bindings

section Bodies

theorem carries_readBlock (h : nt.Carrying) : Carries 0 (readBlock nt) Block.numbered := by
  have hitem : Carries 0 (return [← nt.stmt]) (·.flatMap Stmt.numbered) :=
    .read h.stmt fun stmt => .pure (by simp)
  refine .skip fun opening => .read (.collectUntil hitem) fun body => .skip fun _ => ?_
  refine .fresh fun id => .skip fun span => .pure ?_
  simp only [Block.numbered, stmtNumbered_eq, numbersOf_cons, Numbered.id]
  abel

theorem carries_readArrowBody (h : nt.Carrying) :
    Carries 0 (readArrowBody nt) Block.numbered := by
  unfold readArrowBody
  refine .skip fun block => .ite (fun _ => carries_readBlock h) (fun _ => ?_)
  refine .read (h.expr .comma) fun value => .fresh fun id => .pure ?_
  simp only [Block.numbered, stmtNumbered_eq, List.flatMap_cons, List.flatMap_nil, Stmt.numbered,
    exprNumbered?_eq, Option.toList_some, List.append_nil, numbersOf_cons, Numbered.id]
  abel

/-- The numbers in the parameters of a function, of which the names come first
in the list of its nodes. -/
theorem numbersOf_parameters (parameters : List Parameter) :
    numbersOf (parameters.flatMap Parameter.numbered) =
      numbersOf (parameters.flatMap (fun parameter => parameter.target.named)) +
        numbersOf (parameterNumbered parameters) := by
  induction parameters with
  | nil => rfl
  | cons parameter others ih =>
      simp only [parameterNumbered_eq, List.flatMap_cons, numbersOf_append] at ih ⊢
      rw [ih]
      simp only [Parameter.numbered, numbersOf_append]
      abel

theorem numbersOf_function (name? : Option Identifier) (parameters : List Parameter) (body : Block)
    (arrow : Bool) (span : Span) :
    numbersOf (Expr.function name? parameters body arrow span).numbered =
      numbersOf (namedBy name?) + numbersOf (parameters.flatMap Parameter.numbered) +
        numbersOf body.numbered := by
  rw [numbersOf_parameters]
  simp only [Expr.numbered, numbersOf_append]
  abel

theorem carries_readFunction (h : nt.Carrying) (start : Nat) (name? : Option Identifier) :
    Carries (numbersOf (namedBy name?)) (readFunction nt start name?) Expr.numbered := by
  refine .read (carries_readParameters h) fun parameters => ?_
  refine .read (carries_readBlock h) fun body => .skip fun span => .pure ?_
  rw [numbersOf_function]

theorem carries_readOptionalName : Carries 0 readOptionalName namedBy := by
  unfold readOptionalName
  refine .skip fun present => .ite (fun _ => ?_) (fun _ => .pure rfl)
  exact .skip fun token => .fresh fun id => .pure (by simp [namedBy, Numbered.id])

instance (words : List String) : Silent (skipModifier words) := by
  unfold skipModifier
  infer_instance

theorem carries_readMemberValue (h : nt.Carrying) (key : Token) :
    Carries 0 (readMemberValue nt key) (fun value? => exprNumbered? value?) := by
  unfold readMemberValue
  refine .skip fun method => .ite (fun _ => ?_) (fun _ => ?_)
  · refine .read (carries_readFunction h _ none) fun value => .pure ?_
    simp
  · exact .read (carries_readDefault h) fun value? => .skip fun _ => .pure (zero_add _)

theorem carries_readMember (h : nt.Carrying) :
    Carries 0 (readMember nt) (·.flatMap Member.numbered) := by
  unfold readMember
  refine .skip fun empty => .ite (fun _ => .pure rfl) (fun _ => ?_)
  refine .skip fun start => .skip fun isStatic => .skip fun _ => .skip fun key => ?_
  refine .ite (fun _ => .skip fun _ => ?_) (fun _ => .fail)
  refine .read (carries_readMemberValue h key) fun value? => .skip fun span => .pure ?_
  simp [Member.numbered]

theorem carries_readClassTail (h : nt.Carrying) :
    Carries 0 (readClassTail nt)
      (fun tail => exprNumbered? tail.1 ++ memberNumbered tail.2) := by
  refine .skip fun extended => .read (.optional (h.expr .unary)) fun superclass? => ?_
  refine .skip fun _ => .read (.collectUntil (carries_readMember h)) fun members => ?_
  refine .skip fun _ => .pure ?_
  simp

end Bodies

section Expressions

theorem carries_readPrimary : Carries 0 readPrimary Expr.numbered := by
  refine .skip fun token => ?_
  split
  · split
    · exact .pure rfl
    · exact .fail
  · exact .fresh fun id => .pure (by simp [Numbered.id])
  all_goals first | exact .pure rfl | exact .fail

instance (target : Expr) : Silent (checkAssignable target) := by
  unfold checkAssignable
  infer_instance

theorem carries_readArguments (h : nt.Carrying) :
    Carries 0 (readArguments nt) (·.flatMap Expr.numbered) := by
  refine .skip fun _ => .read (.collectUntil ?_) fun arguments => .skip fun _ => .pure (zero_add _)
  exact .read (h.expr .comma) fun argument => .skip fun _ => .pure (by simp)

theorem carries_readElement (h : nt.Carrying) :
    Carries 0 (readElement nt) (·.flatMap Expr.numbered) := by
  unfold readElement
  refine .skip fun hole => .ite (fun _ => .pure rfl) (fun _ => ?_)
  exact .read (h.expr .comma) fun element => .skip fun _ => .pure (by simp)

theorem carries_readArray (h : nt.Carrying) : Carries 0 (readArray nt) Expr.numbered := by
  refine .skip fun opening => .read (.collectUntil (carries_readElement h)) fun elements => ?_
  exact .skip fun _ => .skip fun span => .pure (by simp)

theorem carries_readSpread (h : nt.Carrying) : Carries 0 (readSpread nt) Expr.numbered := by
  refine .skip fun dots => .read (h.expr .comma) fun argument => .pure ?_
  simp

theorem carries_readPropertyValue (h : nt.Carrying) (key : Token) :
    Carries 0 (readPropertyValue nt key) Expr.numbered := by
  unfold readPropertyValue
  refine .skip fun valued => .ite (fun _ => h.expr .comma) (fun _ => ?_)
  refine .skip fun method => .ite (fun _ => carries_readFunction h _ none) (fun _ => ?_)
  refine .ite (fun _ => ?_) (fun _ => .failHere)
  exact .fresh fun id => .pure (by simp [Numbered.id])

theorem carries_readPropertyEntry (h : nt.Carrying) :
    Carries 0 (readPropertyEntry nt) (fun property => property.value.numbered) := by
  unfold readPropertyEntry
  refine .skip fun rest => .ite (fun _ => ?_) (fun _ => ?_)
  · exact .read (carries_readSpread h) fun value => .pure (zero_add _)
  · refine .skip fun key => .ite (fun _ => .skip fun _ => ?_) (fun _ => .fail)
    exact .read (carries_readPropertyValue h key) fun value => .pure (zero_add _)

theorem carries_readProperty (h : nt.Carrying) :
    Carries 0 (readProperty nt) (·.flatMap (fun property => property.value.numbered)) := by
  refine .read (carries_readPropertyEntry h) fun property => .skip fun _ => .pure ?_
  simp

theorem carries_readObject (h : nt.Carrying) : Carries 0 (readObject nt) Expr.numbered := by
  refine .skip fun opening => .read (.collectUntil (carries_readProperty h)) fun properties => ?_
  exact .skip fun _ => .skip fun span => .pure (by simp)

/-- The numbered nodes in the substitutions that have been read. -/
def substitutionNodes (read : List String × List Expr) : List Numbered :=
  read.2.flatMap Expr.numbered

theorem carries_readSubstitution (h : nt.Carrying) (read : List String × List Expr) :
    Carries (numbersOf (substitutionNodes read)) (readSubstitution nt read)
      (Carries.againNodes substitutionNodes substitutionNodes) := by
  refine .read (h.expr .none) fun substitution => .skip fun part => ?_
  have hread : numbersOf (substitutionNodes read) + numbersOf substitution.numbered =
      numbersOf (substitutionNodes (read.1 ++ [part.text], read.2 ++ [substitution])) := by
    simp [substitutionNodes]
  refine .ite (fun _ => .skip fun _ => .pure hread) (fun _ => ?_)
  exact .ite (fun _ => .skip fun _ => .pure hread) (fun _ => .fail)

theorem carries_readTemplate (h : nt.Carrying) : Carries 0 (readTemplate nt) Expr.numbered := by
  refine .skip fun head => .read (.iterate (carries_readSubstitution h) _) fun read => ?_
  exact .skip fun span => .pure (by simp [substitutionNodes])

theorem carries_readRegex : Carries 0 readRegex Expr.numbered := by
  refine .skip fun token => ?_
  split
  · exact .pure rfl
  · exact .breakOff

instance : Silent atArrowParameters :=
  ⟨fun h => by cases h; rfl⟩

theorem carries_readGroup (h : nt.Carrying) : Carries 0 (readGroup nt) Expr.numbered := by
  unfold readGroup
  refine .skip fun arrow => .ite (fun _ => ?_) (fun _ => ?_)
  · refine .skip fun start => .read (carries_readParameters h) fun parameters => ?_
    refine .skip fun _ => .read (carries_readArrowBody h) fun body => .skip fun span => .pure ?_
    rw [numbersOf_function]
    simp [namedBy]
  · exact .skip fun _ => .read (h.expr .none) fun inner => .skip fun _ => .pure (zero_add _)

theorem carries_readUnary (h : nt.Carrying) : Carries 0 (readUnary nt) Expr.numbered :=
  .skip fun _ => .read (h.expr .unary) fun _ => .pure (zero_add _)

theorem carries_readLeadingUpdate (h : nt.Carrying) :
    Carries 0 (readLeadingUpdate nt) Expr.numbered := by
  refine .skip fun operator => .read (h.expr .unary) fun operand => .skip fun _ => .pure ?_
  simp

theorem carries_readNew (h : nt.Carrying) : Carries 0 (readNew nt) Expr.numbered := by
  refine .skip fun word => .read (h.expr .call) fun callee => .skip fun called => ?_
  refine .ite (fun _ => ?_) (fun _ => ?_)
  · refine .read (carries_readArguments h) fun arguments => .skip fun span => .pure ?_
    simp
  · exact .given (.skip fun span => .pure (by simp))

theorem carries_readFunctionExpr (h : nt.Carrying) :
    Carries 0 (readFunctionExpr nt) Expr.numbered := by
  refine .skip fun word => .read carries_readOptionalName fun name? => ?_
  rw [zero_add]
  exact carries_readFunction h _ name?

theorem carries_readClassExpr (h : nt.Carrying) : Carries 0 (readClassExpr nt) Expr.numbered := by
  refine .skip fun word => .read carries_readOptionalName fun name? => ?_
  refine .read (carries_readClassTail h) fun tail => .skip fun span => .pure ?_
  simp

theorem carries_readLeading (h : nt.Carrying) (form : LeadingForm) :
    Carries 0 (readLeading nt form) Expr.numbered := by
  cases form with
  | primary => exact carries_readPrimary
  | template => exact carries_readTemplate h
  | regex => exact carries_readRegex
  | array => exact carries_readArray h
  | object => exact carries_readObject h
  | function => exact carries_readFunctionExpr h
  | classDef => exact carries_readClassExpr h
  | unary => exact carries_readUnary h
  | spread => exact carries_readSpread h
  | update => exact carries_readLeadingUpdate h
  | group => exact carries_readGroup h
  | new => exact carries_readNew h

theorem carries_readSequence (h : nt.Carrying) (left : Expr) :
    Carries (numbersOf left.numbered) (readSequence nt left) Expr.numbered := by
  refine .skip fun _ => .read (.separated (h.expr .comma)) fun others => .skip fun span => .pure ?_
  simp

theorem carries_readAssignment (h : nt.Carrying) (left : Expr) :
    Carries (numbersOf left.numbered) (readAssignment nt left) Expr.numbered := by
  refine .skip fun _ => .skip fun operator => .read (h.expr .comma) fun value => .pure ?_
  simp

theorem carries_readArrow (h : nt.Carrying) (left : Expr) :
    Carries (numbersOf left.numbered) (readArrow nt left) Expr.numbered := by
  unfold readArrow
  split
  · refine .skip fun _ => .read (carries_readArrowBody h) fun body => .skip fun span => .pure ?_
    rw [numbersOf_function]
    simp [namedBy, Parameter.numbered, Target.named, Target.names]
  · exact .fail

theorem carries_readConditional (h : nt.Carrying) (left : Expr) :
    Carries (numbersOf left.numbered) (readConditional nt left) Expr.numbered := by
  refine .skip fun _ => .read (h.expr .comma) fun consequent => .skip fun _ => ?_
  exact .read (h.expr .comma) fun alternate => .pure (by simp [add_assoc])

theorem carries_readBinary (h : nt.Carrying) (power : Power) (left : Expr) :
    Carries (numbersOf left.numbered) (readBinary nt power left) Expr.numbered :=
  .skip fun operator => .read (h.expr power) fun right => .pure (by simp)

theorem carries_readTrailingUpdate (left : Expr) :
    Carries (numbersOf left.numbered) (readTrailingUpdate left) Expr.numbered :=
  .skip fun _ => .skip fun operator => .pure (by simp)

theorem carries_readCall (h : nt.Carrying) (left : Expr) :
    Carries (numbersOf left.numbered) (readCall nt left) Expr.numbered := by
  refine .read (carries_readArguments h) fun arguments => .skip fun span => .pure ?_
  simp

theorem carries_readMemberAccess (left : Expr) :
    Carries (numbersOf left.numbered) (readMemberAccess left) Expr.numbered := by
  refine .skip fun _ => .skip fun name => .ite (fun _ => .skip fun _ => ?_) (fun _ => .fail)
  exact .skip fun span => .pure (by simp)

theorem carries_readIndex (h : nt.Carrying) (left : Expr) :
    Carries (numbersOf left.numbered) (readIndex nt left) Expr.numbered := by
  refine .skip fun _ => .read (h.expr .none) fun index => .skip fun _ => .skip fun span => ?_
  exact .pure (by simp)

theorem carries_readTrailing (h : nt.Carrying) (left : Expr) (power : Power) (form : TrailingForm) :
    Carries (numbersOf left.numbered) (readTrailing nt left power form) Expr.numbered := by
  cases form with
  | sequence => exact carries_readSequence h left
  | assignment => exact carries_readAssignment h left
  | arrow => exact carries_readArrow h left
  | conditional => exact carries_readConditional h left
  | binary => exact carries_readBinary h power left
  | exponent => exact carries_readBinary h .multiplicative left
  | update => exact carries_readTrailingUpdate left
  | call => exact carries_readCall h left
  | member => exact carries_readMemberAccess left
  | index => exact carries_readIndex h left

theorem carries_readContinuation (h : nt.Carrying) (power : Power) (left : Expr) :
    Carries (numbersOf left.numbered) (readContinuation nt power left)
      (Carries.againNodes Expr.numbered Expr.numbered) := by
  refine .skip_input fun token => .of_input fun input => ?_
  split
  · exact .pure rfl
  · split
    · exact .pure rfl
    · rw [← zero_add (numbersOf _)]
      refine .seq ((carries_readTrailing h left _ _).at_input input) fun larger => .pure ?_
      rw [zero_add]
      rfl

theorem carries_readExpr (h : nt.Carrying) (power : Power) :
    Carries 0 (readExpr nt power) Expr.numbered := by
  refine .skip_input fun token => .of_input fun input => ?_
  split
  · exact .at_input .fail input
  · refine .read ((carries_readLeading h _).at_input input) fun left => ?_
    rw [zero_add]
    exact .at_input (.iterate (carries_readContinuation h power) left) input

end Expressions

end ScriptKinds.Grammar
