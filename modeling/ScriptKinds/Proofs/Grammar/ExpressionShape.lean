import ScriptKinds.Grammar.Expression
import ScriptKinds.Proofs.Grammar.Yielding
import ScriptKinds.Proofs.Tree.WellFormed

namespace ScriptKinds.Grammar

open Reader Node

/-- A result that is well-formed as a node of some sort. -/
abbrev WellFormedAs {α : Type} (form : α → Node) (result : α) : Prop :=
  (form result).WellFormed

/-- All of some results are good. -/
abbrev Each {α : Type} (good : α → Prop) (results : List α) : Prop :=
  ∀ result ∈ results, good result

/-- The names and the defaults in a pattern are well-formed. -/
def PatternParts.WellFormed (parts : PatternParts) : Prop :=
  (∀ element ∈ parts.elements, (Node.element element).WellFormed) ∧
    ∀ value ∈ parts.nestedDefaults, (Node.expr value).WellFormed

/-- The readers of expressions, statements and patterns yield well-formed trees. -/
structure Nonterminals.Yielding (input : Input) (nt : Nonterminals) : Prop where
  expr : ∀ power, Yields input anything (nt.expr power) (WellFormedAs .expr)
  stmt : Yields input anything nt.stmt (WellFormedAs .stmt)
  pattern : Yields input anything nt.pattern PatternParts.WellFormed

variable {input : Input} {now : Token → Prop} {nt : Nonterminals}

section Bindings

theorem PatternParts.wellFormed_join {parts : List PatternParts}
    (h : Each PatternParts.WellFormed parts) : (PatternParts.join parts).WellFormed := by
  constructor
  · intro element helement
    obtain ⟨part, hpart, hinside⟩ := List.mem_flatMap.mp helement
    exact (h part hpart).1 element hinside
  · intro value hvalue
    obtain ⟨part, hpart, hinside⟩ := List.mem_flatMap.mp hvalue
    exact (h part hpart).2 value hinside

theorem PatternParts.wellFormed_single {name : Identifier} {default? : Option Expr} {span : Span}
    (h : Each (WellFormedAs .expr) default?.toList) :
    PatternParts.WellFormed ⟨[⟨name, default?, span⟩], []⟩ := by
  refine ⟨List.forall_mem_singleton.mpr (.intro trivial ?_), nofun⟩
  exact List.forall_mem_map.mpr h

theorem yields_readDefault (h : nt.Yielding input) :
    Yields input now (readDefault nt) fun default? => Each (WellFormedAs .expr) default?.toList :=
  .skip fun _ => .optional (h.expr .comma)

theorem yields_readPatternElement (h : nt.Yielding input) :
    Yields input now (readPatternElement nt) PatternParts.WellFormed := by
  unfold readPatternElement
  refine .skip fun nested => .ite (fun _ => ?_) fun _ => ?_
  · refine .read h.pattern fun inner hinner => .read (yields_readDefault h) ?_
    intro default? hdefault
    exact .pure ⟨hinner.1, List.forall_mem_append.mpr ⟨hinner.2, hdefault⟩⟩
  · refine .skip fun name => .read (yields_readDefault h) fun default? hdefault => ?_
    exact .pure (PatternParts.wellFormed_single hdefault)

theorem yields_readArrayPatternItem (h : nt.Yielding input) :
    Yields input now (readArrayPatternItem nt) (Each PatternParts.WellFormed) := by
  unfold readArrayPatternItem
  refine .skip fun hole => .ite (fun _ => .pure nofun) fun _ => .skip fun _ => ?_
  refine .read (yields_readPatternElement h) fun parts hparts => .skip fun _ => ?_
  exact .pure (List.forall_mem_singleton.mpr hparts)

theorem yields_readPatternProperty (h : nt.Yielding input) :
    Yields input now (readPatternProperty nt) PatternParts.WellFormed := by
  unfold readPatternProperty
  refine .skip fun key => .ite (fun _ => ?_) fun _ => .fail
  refine .skip fun _ => .skip fun renamed => .ite (fun _ => ?_) fun _ => ?_
  · exact yields_readPatternElement h
  · refine .ite (fun _ => .skip fun id => ?_) fun _ => .failHere
    refine .read (yields_readDefault h) fun default? hdefault => ?_
    exact .pure (PatternParts.wellFormed_single hdefault)

theorem yields_readObjectPatternItem (h : nt.Yielding input) :
    Yields input now (readObjectPatternItem nt) (Each PatternParts.WellFormed) := by
  unfold readObjectPatternItem
  refine .skip fun rest => .ite (fun _ => ?_) fun _ => ?_
  · refine .read (yields_readPatternElement h) fun parts hparts => .skip fun _ => ?_
    exact .pure (List.forall_mem_singleton.mpr hparts)
  · refine .read (yields_readPatternProperty h) fun parts hparts => .skip fun _ => ?_
    exact .pure (List.forall_mem_singleton.mpr hparts)

theorem yields_readPattern (h : nt.Yielding input) :
    Yields input now (readPattern nt) PatternParts.WellFormed := by
  unfold readPattern
  refine .skip fun opening => .ite (fun _ => ?_) fun _ => ?_
  · refine .read (.collectUntil (yields_readObjectPatternItem h)) fun parts hparts => ?_
    exact .skip fun _ => .pure (PatternParts.wellFormed_join hparts)
  · refine .read (.collectUntil (yields_readArrayPatternItem h)) fun parts hparts => ?_
    exact .skip fun _ => .pure (PatternParts.wellFormed_join hparts)

theorem yields_readTarget (h : nt.Yielding input) (expectation : String) :
    Yields input now (readTarget nt expectation) (WellFormedAs .target) := by
  unfold readTarget
  refine .skip fun nested => .ite (fun _ => ?_) fun _ => .skip fun name => ?_
  · refine .read h.pattern fun parts hparts => .pure (.intro trivial ?_)
    refine List.forall_mem_append.mpr ⟨?_, ?_⟩
    · exact List.forall_mem_map.mpr hparts.1
    · exact List.forall_mem_map.mpr hparts.2
  · exact .pure (.intro trivial nofun)

theorem yields_readTarget_name (expectation : String)
    (hnow : ∀ token, now token → token.kind = .identifier) :
    Yields input now (readTarget nt expectation) fun target => ∃ name, target = .name name := by
  unfold readTarget
  refine .see fun token htoken => .ite (fun hnested => ?_) fun _ => ?_
  · rw [hnow token htoken] at hnested
    exact absurd hnested (by decide)
  · exact .skip fun name => .pure ⟨name.1, rfl⟩

theorem wellFormed_bound {node : Node} {target : Target} {value? : Option Expr}
    (hshaped : node.Shaped) (hchildren : node.children = .target target :: value?.toList.map .expr)
    (htarget : (Node.target target).WellFormed) (hvalue : Each (WellFormedAs .expr) value?.toList) :
    node.WellFormed := by
  refine .intro hshaped ?_
  rw [hchildren]
  exact List.forall_mem_cons.mpr ⟨htarget, List.forall_mem_map.mpr hvalue⟩

theorem yields_readParameter (h : nt.Yielding input) :
    Yields input now (readParameter nt) (Each (WellFormedAs .parameter)) := by
  refine .skip fun start => .skip fun rest => .read (yields_readTarget h _) fun target htarget => ?_
  refine .read (yields_readDefault h) fun default? hdefault => .skip fun span => .skip fun _ => ?_
  refine .pure (List.forall_mem_singleton.mpr ?_)
  exact wellFormed_bound trivial rfl htarget hdefault

theorem yields_readParameters (h : nt.Yielding input) :
    Yields input now (readParameters nt) (Each (WellFormedAs .parameter)) := by
  refine .skip fun _ => .read (.collectUntil (yields_readParameter h)) ?_
  exact fun parameters hparameters => .skip fun _ => .pure hparameters

end Bindings

section Bodies

theorem wellFormed_block {id : NodeId} {body : List Stmt} {span : Span}
    (h : Each (WellFormedAs .stmt) body) : (Node.block ⟨id, body, span⟩).WellFormed :=
  .intro trivial (List.forall_mem_map.mpr h)

theorem yields_body (h : nt.Yielding input) :
    Yields input now (return [← nt.stmt]) (Each (WellFormedAs .stmt)) :=
  .read h.stmt.anywhere fun _ hstmt => .pure (List.forall_mem_singleton.mpr hstmt)

theorem yields_readBlock (h : nt.Yielding input) :
    Yields input now (readBlock nt) (WellFormedAs .block) := by
  refine .skip fun opening => .read (.collectUntil (yields_body h)) fun body hbody => ?_
  exact .skip fun _ => .skip fun id => .skip fun span => .pure (wellFormed_block hbody)

theorem yields_readArrowBody (h : nt.Yielding input) :
    Yields input now (readArrowBody nt) (WellFormedAs .block) := by
  unfold readArrowBody
  refine .skip fun block => .ite (fun _ => yields_readBlock h) fun _ => ?_
  refine .read (h.expr .comma) fun value hvalue => .skip fun id => .pure ?_
  refine wellFormed_block (List.forall_mem_singleton.mpr (.intro trivial ?_))
  exact List.forall_mem_singleton.mpr hvalue

theorem wellFormed_function {name? : Option Identifier} {parameters : List Parameter}
    {body : Block} {arrow : Bool} {span : Span} (hname : arrow = true → name? = none)
    (hparameters : Each (WellFormedAs .parameter) parameters)
    (hbody : (Node.block body).WellFormed) :
    (Node.expr (.function name? parameters body arrow span)).WellFormed := by
  refine .intro hname (List.forall_mem_append.mpr ?_)
  exact ⟨List.forall_mem_map.mpr hparameters, List.forall_mem_singleton.mpr hbody⟩

theorem yields_readFunction (h : nt.Yielding input) (start : Nat) (name? : Option Identifier) :
    Yields input now (readFunction nt start name?) (WellFormedAs .expr) := by
  refine .read (yields_readParameters h) fun parameters hparameters => ?_
  refine .read (yields_readBlock h) fun body hbody => .skip fun span => .pure ?_
  exact wellFormed_function nofun hparameters hbody

theorem yields_readMemberValue (h : nt.Yielding input) (key : Token) :
    Yields input now (readMemberValue nt key) fun value? =>
      Each (WellFormedAs .expr) value?.toList := by
  unfold readMemberValue
  refine .skip fun method => .ite (fun _ => ?_) fun _ => ?_
  · refine .read (yields_readFunction h _ none) fun value hvalue => ?_
    exact .pure (List.forall_mem_singleton.mpr hvalue)
  · exact .read (yields_readDefault h) fun value? hvalue => .skip fun _ => .pure hvalue

theorem yields_readMember (h : nt.Yielding input) :
    Yields input now (readMember nt) (Each (WellFormedAs .member)) := by
  unfold readMember
  refine .skip fun empty => .ite (fun _ => .pure nofun) fun _ => .skip fun start => ?_
  refine .skip fun isStatic => .skip fun _ => .skip fun key => ?_
  refine .ite (fun _ => .skip fun _ => ?_) fun _ => .fail
  refine .read (yields_readMemberValue h key) fun value? hvalue => .skip fun span => .pure ?_
  exact List.forall_mem_singleton.mpr (.intro trivial (List.forall_mem_map.mpr hvalue))

theorem yields_readClassTail (h : nt.Yielding input) :
    Yields input now (readClassTail nt) fun tail =>
      Each (WellFormedAs .expr) tail.1.toList ∧ Each (WellFormedAs .member) tail.2 := by
  refine .skip fun extended => .read (.optional (h.expr .unary)) fun superclass? hsuperclass => ?_
  refine .skip fun _ => .read (.collectUntil (yields_readMember h)) fun members hmembers => ?_
  exact .skip fun _ => .pure ⟨hsuperclass, hmembers⟩

end Bodies

section Expressions

theorem wellFormed_leaf {expr : Expr} (hshaped : expr.Shaped) (hchildren : expr.children = []) :
    (Node.expr expr).WellFormed := by
  refine .intro hshaped ?_
  rw [Node.children, hchildren]
  exact List.forall_mem_nil _

theorem yields_readPrimary : Yields input now readPrimary (WellFormedAs .expr) := by
  refine .skip fun token => ?_
  split
  · split
    · exact .pure (wellFormed_leaf trivial rfl)
    · exact .fail
  · exact .skip fun id => .pure (wellFormed_leaf trivial rfl)
  all_goals first | exact .pure (wellFormed_leaf trivial rfl) | exact .fail

theorem yields_checkAssignable {α : Type} {target : Expr} {next : PUnit → Reader α}
    {good : α → Prop} (h : target.IsReference → Yields input now (next ()) good) :
    Yields input now (checkAssignable target >>= next) good := by
  unfold checkAssignable
  split
  · exact .given (h (Expr.isReference_of_isAssignable ‹_›))
  · have hfail : Yields input now
        (failAt (.invalidTarget target.formName) target.span.start : Reader PUnit) fun _ => False :=
      .fail
    exact .read hfail fun _ => False.elim

theorem yields_readArguments (h : nt.Yielding input) :
    Yields input now (readArguments nt) (Each (WellFormedAs .expr)) := by
  refine .skip fun _ => .read (.collectUntil ?_) fun arguments harguments => .skip fun _ =>
    .pure harguments
  refine .read (h.expr .comma) fun argument hargument => .skip fun _ => ?_
  exact .pure (List.forall_mem_singleton.mpr hargument)

theorem yields_readElement (h : nt.Yielding input) :
    Yields input now (readElement nt) (Each (WellFormedAs .expr)) := by
  unfold readElement
  refine .skip fun hole => .ite (fun _ => .pure nofun) fun _ => ?_
  refine .read (h.expr .comma) fun element helement => .skip fun _ => ?_
  exact .pure (List.forall_mem_singleton.mpr helement)

theorem yields_readArray (h : nt.Yielding input) :
    Yields input now (readArray nt) (WellFormedAs .expr) := by
  refine .skip fun opening => .read (.collectUntil (yields_readElement h)) ?_
  refine fun elements helements => .skip fun _ => .skip fun span => .pure ?_
  exact .intro trivial (List.forall_mem_map.mpr helements)

theorem yields_readSpread (h : nt.Yielding input) :
    Yields input now (readSpread nt) (WellFormedAs .expr) := by
  refine .skip fun dots => .read (h.expr .comma) fun argument hargument => .pure ?_
  exact .intro trivial (List.forall_mem_singleton.mpr hargument)

theorem yields_readPropertyValue (h : nt.Yielding input) (key : Token) :
    Yields input now (readPropertyValue nt key) (WellFormedAs .expr) := by
  unfold readPropertyValue
  refine .skip fun valued => .ite (fun _ => (h.expr .comma).anywhere) fun _ => ?_
  refine .skip fun method => .ite (fun _ => yields_readFunction h _ none) fun _ => ?_
  refine .ite (fun _ => ?_) fun _ => .failHere
  exact .skip fun id => .pure (wellFormed_leaf trivial rfl)

theorem wellFormed_property {key : String} {value : Expr} (h : (Node.expr value).WellFormed) :
    (Node.property ⟨key, value⟩).WellFormed :=
  .intro trivial (List.forall_mem_singleton.mpr h)

theorem yields_readPropertyEntry (h : nt.Yielding input) :
    Yields input now (readPropertyEntry nt) (WellFormedAs .property) := by
  unfold readPropertyEntry
  refine .skip fun rest => .ite (fun _ => ?_) fun _ => .skip fun key => ?_
  · exact .read (yields_readSpread h) fun value hvalue => .pure (wellFormed_property hvalue)
  · refine .ite (fun _ => .skip fun _ => ?_) fun _ => .fail
    refine .read (yields_readPropertyValue h key) fun value hvalue => ?_
    exact .pure (wellFormed_property hvalue)

theorem yields_readProperty (h : nt.Yielding input) :
    Yields input now (readProperty nt) (Each (WellFormedAs .property)) := by
  refine .read (yields_readPropertyEntry h) fun property hproperty => .skip fun _ => ?_
  exact .pure (List.forall_mem_singleton.mpr hproperty)

theorem yields_readObject (h : nt.Yielding input) :
    Yields input now (readObject nt) (WellFormedAs .expr) := by
  refine .skip fun opening => .read (.collectUntil (yields_readProperty h)) ?_
  refine fun properties hproperties => .skip fun _ => .skip fun span => .pure ?_
  exact .intro trivial (List.forall_mem_map.mpr hproperties)

/-- One text more than substitutions, which are well-formed. -/
def SoundTemplate (read : List String × List Expr) : Prop :=
  read.1.length = read.2.length + 1 ∧ Each (WellFormedAs .expr) read.2

theorem yields_readSubstitution (h : nt.Yielding input) {read : List String × List Expr}
    (hread : SoundTemplate read) :
    Yields input now (readSubstitution nt read) (Yields.againGood SoundTemplate SoundTemplate) := by
  refine .read (h.expr .none).anywhere fun substitution hsubstitution => .skip fun part => ?_
  have hmore : SoundTemplate (read.1 ++ [part.text], read.2 ++ [substitution]) := by
    constructor
    · rw [List.length_append, List.length_append, hread.1]
      rfl
    · exact List.forall_mem_append.mpr ⟨hread.2, List.forall_mem_singleton.mpr hsubstitution⟩
  refine .ite (fun _ => .skip fun _ => .pure hmore) fun _ => ?_
  exact .ite (fun _ => .skip fun _ => .pure hmore) fun _ => .fail

theorem yields_readTemplate (h : nt.Yielding input) :
    Yields input now (readTemplate nt) (WellFormedAs .expr) := by
  have hstart (head : Token) : SoundTemplate ([head.text], []) := ⟨rfl, nofun⟩
  refine .skip fun head => .read (.iterate (fun _ => yields_readSubstitution h) (hstart head)) ?_
  intro read hread
  exact .skip fun span => .pure (.intro hread.1 (List.forall_mem_map.mpr hread.2))

theorem yields_readRegex : Yields input now readRegex (WellFormedAs .expr) := by
  refine .skip fun token => ?_
  split
  · exact .pure (wellFormed_leaf trivial rfl)
  · exact .breakOff

theorem yields_readGroup (h : nt.Yielding input) :
    Yields input now (readGroup nt) (WellFormedAs .expr) := by
  unfold readGroup
  refine .skip fun arrow => .ite (fun _ => ?_) fun _ => .skip fun _ => ?_
  · refine .skip fun start => .read (yields_readParameters h) fun parameters hparameters => ?_
    refine .skip fun _ => .read (yields_readArrowBody h) fun body hbody => .skip fun span => ?_
    exact .pure (wellFormed_function (fun _ => rfl) hparameters hbody)
  · exact .read (h.expr .none) fun inner hinner => .skip fun _ => .pure hinner

theorem yields_readUnary (h : nt.Yielding input) :
    Yields input now (readUnary nt) (WellFormedAs .expr) := by
  refine .skip fun operator => .read (h.expr .unary) fun operand hoperand => .pure ?_
  exact .intro trivial (List.forall_mem_singleton.mpr hoperand)

theorem yields_readLeadingUpdate (h : nt.Yielding input) :
    Yields input now (readLeadingUpdate nt) (WellFormedAs .expr) := by
  refine .skip fun operator => .read (h.expr .unary) fun operand hoperand => ?_
  refine yields_checkAssignable fun hreference => .pure ?_
  exact .intro hreference (List.forall_mem_singleton.mpr hoperand)

theorem wellFormed_new {callee : Expr} {arguments : List Expr} {span : Span}
    (hcallee : (Node.expr callee).WellFormed) (harguments : Each (WellFormedAs .expr) arguments) :
    (Node.expr (.new callee arguments span)).WellFormed := by
  refine .intro trivial (List.forall_mem_cons.mpr ⟨hcallee, ?_⟩)
  exact List.forall_mem_map.mpr harguments

theorem yields_readNew (h : nt.Yielding input) :
    Yields input now (readNew nt) (WellFormedAs .expr) := by
  refine .skip fun word => .read (h.expr .call) fun callee hcallee => .skip fun called => ?_
  refine .ite (fun _ => ?_) fun _ => .given (.skip fun span => .pure (wellFormed_new hcallee nofun))
  refine .read (yields_readArguments h) fun arguments harguments => .skip fun span => ?_
  exact .pure (wellFormed_new hcallee harguments)

theorem yields_readFunctionExpr (h : nt.Yielding input) :
    Yields input now (readFunctionExpr nt) (WellFormedAs .expr) :=
  .skip fun _ => .skip fun name? => yields_readFunction h _ name?

theorem yields_readClassExpr (h : nt.Yielding input) :
    Yields input now (readClassExpr nt) (WellFormedAs .expr) := by
  refine .skip fun word => .skip fun name? => .read (yields_readClassTail h) fun tail htail => ?_
  refine .skip fun span => .pure (.intro trivial (List.forall_mem_append.mpr ?_))
  exact ⟨List.forall_mem_map.mpr htail.1, List.forall_mem_map.mpr htail.2⟩

theorem yields_readLeading (h : nt.Yielding input) (form : LeadingForm) :
    Yields input now (readLeading nt form) (WellFormedAs .expr) := by
  cases form with
  | primary => exact yields_readPrimary
  | template => exact yields_readTemplate h
  | regex => exact yields_readRegex
  | array => exact yields_readArray h
  | object => exact yields_readObject h
  | function => exact yields_readFunctionExpr h
  | classDef => exact yields_readClassExpr h
  | unary => exact yields_readUnary h
  | spread => exact yields_readSpread h
  | update => exact yields_readLeadingUpdate h
  | group => exact yields_readGroup h
  | new => exact yields_readNew h

variable {left : Expr}

theorem wellFormed_pair {expr first second : Expr} (hshaped : expr.Shaped)
    (hchildren : expr.children = [.expr first, .expr second])
    (hfirst : (Node.expr first).WellFormed) (hsecond : (Node.expr second).WellFormed) :
    (Node.expr expr).WellFormed := by
  refine .intro hshaped ?_
  rw [Node.children, hchildren]
  exact List.forall_mem_cons.mpr ⟨hfirst, List.forall_mem_singleton.mpr hsecond⟩

theorem yields_readSequence (h : nt.Yielding input) (hleft : (Node.expr left).WellFormed) :
    Yields input now (readSequence nt left) (WellFormedAs .expr) := by
  refine .skip fun _ => .read (.separated (h.expr .comma)) ?_
  rintro others ⟨hne, hothers⟩
  have hlength := List.length_pos_iff.mpr hne
  refine .skip fun span => .pure (.intro (Nat.succ_le_succ hlength) ?_)
  exact List.forall_mem_map.mpr (List.forall_mem_cons.mpr ⟨hleft, hothers⟩)

theorem yields_readAssignment (h : nt.Yielding input) (hleft : (Node.expr left).WellFormed) :
    Yields input (fun token => IsAssigning token.kind) (readAssignment nt left)
      (WellFormedAs .expr) := by
  refine yields_checkAssignable fun hreference => .take fun operator hoperator => ?_
  refine .read (h.expr .comma) fun value hvalue => .pure ?_
  exact wellFormed_pair ⟨hreference, hoperator⟩ rfl hleft hvalue

theorem yields_readArrow (h : nt.Yielding input) :
    Yields input now (readArrow nt left) (WellFormedAs .expr) := by
  unfold readArrow
  split
  · refine .skip fun _ => .read (yields_readArrowBody h) fun body hbody => .skip fun span => ?_
    refine .pure (wellFormed_function (fun _ => rfl) (List.forall_mem_singleton.mpr ?_) hbody)
    exact .intro trivial (List.forall_mem_singleton.mpr (.intro trivial nofun))
  · exact .fail

theorem yields_readConditional (h : nt.Yielding input) (hleft : (Node.expr left).WellFormed) :
    Yields input now (readConditional nt left) (WellFormedAs .expr) := by
  refine .skip fun _ => .read (h.expr .comma) fun consequent hconsequent => .skip fun _ => ?_
  refine .read (h.expr .comma) fun alternate halternate => .pure (.intro trivial ?_)
  refine List.forall_mem_cons.mpr ⟨hleft, List.forall_mem_cons.mpr ⟨hconsequent, ?_⟩⟩
  exact List.forall_mem_singleton.mpr halternate

theorem yields_readBinary (h : nt.Yielding input) (power : Power)
    (hleft : (Node.expr left).WellFormed) :
    Yields input (fun token => IsBinary token.kind) (readBinary nt power left)
      (WellFormedAs .expr) := by
  refine .take fun operator hoperator => .read (h.expr power) fun right hright => .pure ?_
  exact wellFormed_pair hoperator rfl hleft hright

theorem yields_readTrailingUpdate (hleft : (Node.expr left).WellFormed) :
    Yields input now (readTrailingUpdate left) (WellFormedAs .expr) := by
  refine yields_checkAssignable fun hreference => .skip fun operator => .pure ?_
  exact .intro hreference (List.forall_mem_singleton.mpr hleft)

theorem yields_readCall (h : nt.Yielding input) (hleft : (Node.expr left).WellFormed) :
    Yields input now (readCall nt left) (WellFormedAs .expr) := by
  refine .read (yields_readArguments h) fun arguments harguments => .skip fun span => .pure ?_
  exact .intro trivial
    (List.forall_mem_cons.mpr ⟨hleft, List.forall_mem_map.mpr harguments⟩)

theorem yields_readMemberAccess (hleft : (Node.expr left).WellFormed) :
    Yields input now (readMemberAccess left) (WellFormedAs .expr) := by
  refine .skip fun _ => .skip fun name => .ite (fun _ => .skip fun _ => ?_) fun _ => .fail
  exact .skip fun span => .pure (.intro trivial (List.forall_mem_singleton.mpr hleft))

theorem yields_readIndex (h : nt.Yielding input) (hleft : (Node.expr left).WellFormed) :
    Yields input now (readIndex nt left) (WellFormedAs .expr) := by
  refine .skip fun _ => .read (h.expr .none) fun index hindex => .skip fun _ => .skip fun span => ?_
  exact .pure (wellFormed_pair trivial rfl hleft hindex)

/-- The table tells the form from the token, so the token is an operator of that
form. -/
theorem yields_readTrailing (h : nt.Yielding input) (hleft : (Node.expr left).WellFormed)
    (power : Power) (form : TrailingForm) :
    Yields input (fun token => script.trailing? token.kind = some (form, power))
      (readTrailing nt left power form) (WellFormedAs .expr) := by
  cases form with
  | sequence => exact yields_readSequence h hleft
  | assignment =>
      apply Yields.given_now _ (yields_readAssignment h hleft)
      exact fun token htrailing => isAssigning_of_trailing htrailing
  | arrow => exact yields_readArrow h
  | conditional => exact yields_readConditional h hleft
  | binary =>
      apply Yields.given_now _ (yields_readBinary h power hleft)
      exact fun token htrailing => ⟨.binary, power, htrailing, .inl rfl⟩
  | exponent =>
      apply Yields.given_now _ (yields_readBinary h .multiplicative hleft)
      exact fun token htrailing => ⟨.exponent, power, htrailing, .inr rfl⟩
  | update => exact yields_readTrailingUpdate hleft
  | call => exact yields_readCall h hleft
  | member => exact yields_readMemberAccess hleft
  | index => exact yields_readIndex h hleft

theorem yields_readContinuation (hscript : input.grammar = .script) (h : nt.Yielding input)
    (power : Power) (hleft : (Node.expr left).WellFormed) :
    Yields input now (readContinuation nt power left)
      (Yields.againGood (WellFormedAs .expr) (WellFormedAs .expr)) := by
  refine .see_input fun token _ => .at_input ?_
  rw [hscript]
  split
  · exact .pure hleft
  · rename_i form own htrailing
    split
    · exact .pure hleft
    · have hlarger : Yields input (· = token) (readTrailing nt left own form)
          (WellFormedAs .expr) := by
        refine .given_now ?_ (yields_readTrailing h hleft own form)
        rintro token rfl
        exact htrailing
      exact .read hlarger.to_input fun larger hlarger => .pure hlarger

theorem yields_readExpr (hscript : input.grammar = .script) (h : nt.Yielding input)
    (power : Power) : Yields input now (readExpr nt power) (WellFormedAs .expr) := by
  refine .see_input fun token _ => .at_input ?_
  split
  · exact .to_input .fail
  · rename_i form _
    refine .to_input (.read (yields_readLeading h form) fun left hleft => ?_)
    exact .iterate (fun _ => yields_readContinuation hscript h power) hleft

end Expressions

end ScriptKinds.Grammar
