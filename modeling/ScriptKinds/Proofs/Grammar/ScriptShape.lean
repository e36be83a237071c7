import ScriptKinds.Grammar.Script
import ScriptKinds.Proofs.Grammar.ExpressionShape
import ScriptKinds.Proofs.Grammar.ScriptNumbers

namespace ScriptKinds

namespace TokenStream

theorem kind_of_isForEachHead {tokens : TokenStream} {place : Nat}
    (h : tokens.isForEachHead place = true) :
    declarationWords.contains (tokens.get place).kind = true ∨
      (tokens.get place).kind = .identifier := by
  cases hdeclared : declarationWords.contains (tokens.get place).kind with
  | true => exact .inl rfl
  | false =>
      refine .inr ?_
      rw [isForEachHead, behindLoopVariable?] at h
      simp only [hdeclared, Bool.false_eq_true, if_false] at h
      cases hkind : (tokens.get place).kind <;> simp [hkind] at h ⊢

end TokenStream

namespace Grammar

open Reader Node

variable {input : Input} {now : Token → Prop} {nt : Nonterminals}

section Statements

theorem wellFormed_of_value {stmt : Stmt} {value : Expr} (hshaped : stmt.Shaped)
    (hchildren : stmt.children = [.expr value]) (hvalue : (Node.expr value).WellFormed) :
    (Node.stmt stmt).WellFormed := by
  refine .intro hshaped ?_
  rw [Node.children, hchildren]
  exact List.forall_mem_singleton.mpr hvalue

theorem yields_readDeclarator (h : nt.Yielding input) (kind : DeclarationKind) :
    Yields input now (readDeclarator nt kind) fun declarator =>
      declarator.Shaped kind ∧ (Node.declarator declarator).WellFormed := by
  refine .skip fun start => .read (yields_readTarget h _) fun target htarget => ?_
  refine .read (yields_readDefault h) fun value? hvalue => ?_
  split
  · exact .failHere
  · exact .failHere
  · rename_i hconst hpattern
    refine .skip fun span => .pure ⟨?_, wellFormed_bound trivial rfl htarget hvalue⟩
    rintro rfl
    constructor
    · rintro rfl
      exact hconst rfl rfl
    · cases target with
      | name name => exact ⟨name, rfl⟩
      | pattern elements nestedDefaults => exact (hpattern _ _ rfl rfl).elim

theorem yields_readVariables (h : nt.Yielding input) :
    Yields input now (readVariables nt) (WellFormedAs .stmt) := by
  refine .skip fun word => .read (.separated (yields_readDeclarator h _)) ?_
  rintro declarators ⟨hne, hall⟩
  refine .skip fun span => .pure (.intro ⟨hne, fun declarator hmem => (hall declarator hmem).1⟩ ?_)
  exact List.forall_mem_map.mpr fun declarator hmem => (hall declarator hmem).2

theorem yields_readVariablesStmt (h : nt.Yielding input) :
    Yields input now (readVariablesStmt nt) (WellFormedAs .stmt) :=
  .read (yields_readVariables h) fun _ hdeclaration => .skip fun _ => .pure hdeclaration

theorem wellFormed_imports (bindings : List ImportBinding) (source : String) (span : Span) :
    (Node.stmt (.imports bindings source span)).WellFormed :=
  .intro trivial (List.forall_mem_map.mpr fun _ _ => .intro trivial nofun)

theorem yields_readImports : Yields input now readImports (WellFormedAs .stmt) := by
  unfold readImports
  refine .skip fun word => .skip fun bare => .ite (fun _ => .skip fun source => ?_) fun _ => ?_
  · exact .skip fun _ => .skip fun span => .pure (wellFormed_imports _ _ _)
  · refine .skip fun bindings => .skip fun _ => .skip fun source => .skip fun _ => ?_
    exact .skip fun span => .pure (wellFormed_imports _ _ _)

theorem yields_readFunctionStmt (h : nt.Yielding input) :
    Yields input now (readFunctionStmt nt) (WellFormedAs .stmt) := by
  refine .skip fun word => .skip fun name => .read (yields_readParameters h) ?_
  intro parameters hparameters
  refine .read (yields_readBlock h) fun body hbody => .skip fun span => .pure (.intro trivial ?_)
  refine List.forall_mem_append.mpr ⟨List.forall_mem_map.mpr hparameters, ?_⟩
  exact List.forall_mem_singleton.mpr hbody

theorem yields_readDefaultExport (h : nt.Yielding input) :
    Yields input now (readDefaultExport nt) (WellFormedAs .stmt) := by
  unfold readDefaultExport
  refine .skip fun next => .skip fun named => .ite (fun _ => yields_readFunctionStmt h) fun _ => ?_
  refine .read (h.expr .comma) fun value hvalue => .skip fun _ => .pure ?_
  exact wellFormed_of_value trivial rfl hvalue

theorem wellFormed_bare {stmt : Stmt} (hshaped : stmt.Shaped) (hchildren : stmt.children = []) :
    (Node.stmt stmt).WellFormed := by
  refine .intro hshaped ?_
  rw [Node.children, hchildren]
  exact List.forall_mem_nil _

theorem yields_readExportList : Yields input now readExportList (WellFormedAs .stmt) := by
  unfold readExportList
  refine .skip fun opening => ?_
  extract_lets finish source
  have hfinish (result : PUnit) : Yields input anything (finish result) (WellFormedAs .stmt) :=
    .skip fun _ => .skip fun span => .pure (wellFormed_bare trivial rfl)
  have hsource (result : PUnit) : Yields input anything (source result) (WellFormedAs .stmt) := by
    refine .skip fun present => .ite (fun _ => ?_) fun _ => hfinish ()
    exact .skip fun _ => .skip fun _ => hfinish ()
  refine .ite (fun _ => .skip fun _ => .skip fun _ => hsource ()) fun _ => .skip fun renamed => ?_
  exact .ite (fun _ => .skip fun _ => .skip fun _ => hsource ()) fun _ => hsource ()

theorem yields_readExports (h : nt.Yielding input) :
    Yields input now (readExports nt) (WellFormedAs .stmt) := by
  unfold readExports
  refine .skip fun word => .skip fun isDefault => ?_
  extract_lets finish
  have hfinish (declaration : Stmt) (hdeclaration : (Node.stmt declaration).WellFormed) :
      Yields input anything (finish declaration) (WellFormedAs .stmt) :=
    .skip fun span => .pure (.intro trivial (List.forall_mem_singleton.mpr hdeclaration))
  refine .skip fun listed => .ite (fun _ => .skip fun _ => ?_) fun _ => ?_
  · exact .read (yields_readDefaultExport h) hfinish
  · refine .ite (fun _ => ?_) fun _ => ?_
    · exact .read yields_readExportList hfinish
    · exact .read h.stmt hfinish

theorem yields_readCondition (h : nt.Yielding input) :
    Yields input now (readCondition nt) (WellFormedAs .expr) :=
  .skip fun _ => .read (h.expr .none) fun _ hcondition => .skip fun _ => .pure hcondition

theorem yields_readConditionalStmt (h : nt.Yielding input) :
    Yields input now (readConditionalStmt nt) (WellFormedAs .stmt) := by
  refine .skip fun word => .read (yields_readCondition h) fun condition hcondition => ?_
  refine .read h.stmt fun consequent hconsequent => .skip fun present => ?_
  refine .read (.optional h.stmt) fun alternate? halternate => .skip fun span => .pure ?_
  refine .intro trivial (List.forall_mem_append.mpr ⟨?_, List.forall_mem_map.mpr halternate⟩)
  exact List.forall_mem_cons.mpr ⟨hcondition, List.forall_mem_singleton.mpr hconsequent⟩

theorem yields_readWhile (h : nt.Yielding input) :
    Yields input now (readWhile nt) (WellFormedAs .stmt) := by
  refine .skip fun word => .read (yields_readCondition h) fun condition hcondition => ?_
  refine .read h.stmt fun body hbody => .skip fun span => .pure (.intro trivial ?_)
  exact List.forall_mem_cons.mpr ⟨hcondition, List.forall_mem_singleton.mpr hbody⟩

theorem yields_readDoWhile (h : nt.Yielding input) :
    Yields input now (readDoWhile nt) (WellFormedAs .stmt) := by
  refine .skip fun word => .read h.stmt fun body hbody => .skip fun _ => ?_
  refine .read (yields_readCondition h) fun condition hcondition => .skip fun _ => ?_
  refine .skip fun span => .pure (.intro trivial ?_)
  exact List.forall_mem_cons.mpr ⟨hbody, List.forall_mem_singleton.mpr hcondition⟩

/-- What may stand at the start of a loop over a subject. -/
def StartsForEach (token : Token) : Prop :=
  TokenStream.declarationWords.contains token.kind = true ∨ token.kind = .identifier

theorem yields_atForEachHead {α : Type} {next : Bool → Reader α} {good : α → Prop}
    (hyes : Yields input StartsForEach (next true) good)
    (hno : Yields input anything (next false) good) :
    Yields input now (atForEachHead >>= next) good := by
  intro before result after _ hrun
  obtain ⟨present, middle, hhead, hnext⟩ := bind_ok hrun
  cases hpresent : input.tokens.isForEachHead before.place with
  | true =>
      rw [atForEachHead, hpresent] at hhead
      cases hhead
      exact hyes _ _ _ (TokenStream.kind_of_isForEachHead hpresent) hnext
  | false =>
      rw [atForEachHead, hpresent] at hhead
      cases hhead
      exact hno _ _ _ trivial hnext

theorem yields_readForEach (h : nt.Yielding input) (start : Nat) :
    Yields input StartsForEach (readForEach nt start) (WellFormedAs .stmt) := by
  unfold readForEach
  refine .see fun token htoken => ?_
  extract_lets rest
  have hrest {now : Token → Prop} (kind? : Option DeclarationKind)
      (hname : kind? = none → ∀ token, now token → token.kind = .identifier) :
      Yields input now (rest kind?) (WellFormedAs .stmt) := by
    have htarget : Yields input now (readTarget nt "expected loop variable") fun target =>
        (Node.target target).WellFormed ∧ (kind? = none → ∃ name, target = .name name) := by
      refine .and (yields_readTarget h _) ?_
      cases kind? with
      | none => exact (yields_readTarget_name _ (hname rfl)).mono fun _ hnamed _ => hnamed
      | some kind => exact (yields_readTarget h _).mono fun _ _ => nofun
    refine .read htarget ?_
    rintro target ⟨htarget, hnamed⟩
    refine .skip fun word => .read (h.expr .none) fun subject hsubject => .skip fun _ => ?_
    refine .read h.stmt fun body hbody => .skip fun id => .skip fun span => .pure ?_
    refine .intro hnamed (List.forall_mem_cons.mpr ⟨htarget, ?_⟩)
    exact List.forall_mem_cons.mpr ⟨hsubject, List.forall_mem_singleton.mpr hbody⟩
  refine .ite (fun _ => .skip fun word => .given (hrest _ nofun)) fun hnone => ?_
  refine .given (hrest none ?_)
  rintro _ token rfl
  exact htoken.resolve_left hnone

theorem yields_readLoopStart (h : nt.Yielding input) :
    Yields input now (readLoopStart nt) fun init? => Each (WellFormedAs .stmt) init?.toList := by
  unfold readLoopStart
  refine .skip fun missing => .ite (fun _ => .pure nofun) fun _ => .skip fun declared => ?_
  refine .ite (fun _ => ?_) fun _ => ?_
  · refine .read (yields_readVariables h) fun declaration hdeclaration => ?_
    exact .pure (List.forall_mem_singleton.mpr hdeclaration)
  · refine .read (h.expr .none) fun value hvalue => .pure ?_
    exact List.forall_mem_singleton.mpr (wellFormed_of_value trivial rfl hvalue)

theorem yields_readForParts (h : nt.Yielding input) (start : Nat) :
    Yields input now (readForParts nt start) (WellFormedAs .stmt) := by
  refine .read (yields_readLoopStart h) fun init? hinit => .skip fun _ => .skip fun _ => ?_
  refine .read (.optional (h.expr .none)) fun condition? hcondition => .skip fun _ => ?_
  refine .skip fun _ => .read (.optional (h.expr .none)) fun update? hupdate => .skip fun _ => ?_
  refine .read h.stmt fun body hbody => .skip fun id => .skip fun span => .pure (.intro trivial ?_)
  refine List.forall_mem_append.mpr ⟨?_, List.forall_mem_singleton.mpr hbody⟩
  refine List.forall_mem_append.mpr ⟨?_, List.forall_mem_map.mpr hupdate⟩
  exact List.forall_mem_append.mpr
    ⟨List.forall_mem_map.mpr hinit, List.forall_mem_map.mpr hcondition⟩

theorem yields_readFor (h : nt.Yielding input) :
    Yields input now (readFor nt) (WellFormedAs .stmt) := by
  refine .skip fun word => .skip fun _ => yields_atForEachHead ?_ ?_
  · exact yields_readForEach h _
  · exact yields_readForParts h _

theorem yields_readResult (h : nt.Yielding input) :
    Yields input now (readResult nt) (WellFormedAs .stmt) := by
  refine .skip fun word => .skip fun token => .read (.optional (h.expr .none)) ?_
  refine fun value? hvalue => .skip fun _ => .skip fun span => .pure (.intro trivial ?_)
  exact List.forall_mem_map.mpr hvalue

theorem yields_readJump {jump : Span → Stmt} (hjump : ∀ span, (Node.stmt (jump span)).WellFormed) :
    Yields input now (readJump jump) (WellFormedAs .stmt) := by
  unfold readJump
  refine .skip fun word => .skip fun label => ?_
  extract_lets finish
  have hfinish (result : PUnit) : Yields input anything (finish result) (WellFormedAs .stmt) :=
    .skip fun _ => .pure (hjump _)
  exact .ite (fun _ => .skip fun _ => hfinish ()) fun _ => (hfinish ()).anywhere

theorem yields_readEmpty : Yields input now readEmpty (WellFormedAs .stmt) :=
  .skip fun _ => .pure (wellFormed_bare trivial rfl)

theorem yields_readLabeled (h : nt.Yielding input) :
    Yields input now (readLabeled nt) (WellFormedAs .stmt) := by
  refine .skip fun label => .skip fun _ => .read h.stmt fun body hbody => .skip fun span => ?_
  exact .pure (.intro trivial (List.forall_mem_singleton.mpr hbody))

theorem yields_readRaise (h : nt.Yielding input) :
    Yields input now (readRaise nt) (WellFormedAs .stmt) := by
  refine .skip fun word => .read (h.expr .none) fun value hvalue => .skip fun _ => ?_
  exact .skip fun span => .pure (wellFormed_of_value trivial rfl hvalue)

theorem yields_readCatch (h : nt.Yielding input) :
    Yields input now (readCatch nt) (WellFormedAs .handler) := by
  have hparameter : Yields input anything (readCatchParameter nt) (WellFormedAs .target) :=
    .read (yields_readTarget h _) fun _ htarget => .skip fun _ => .pure htarget
  refine .skip fun word => .skip fun named => .read (.optional hparameter) ?_
  refine fun parameter? hparameter => .read (yields_readBlock h) fun body hbody => ?_
  refine .skip fun span => .pure (.intro trivial (List.forall_mem_append.mpr ?_))
  exact ⟨List.forall_mem_map.mpr hparameter, List.forall_mem_singleton.mpr hbody⟩

theorem yields_readGuarded (h : nt.Yielding input) :
    Yields input now (readGuarded nt) (WellFormedAs .stmt) := by
  refine .skip fun word => .read (yields_readBlock h) fun block hblock => .skip fun caught => ?_
  refine .read (.optional (yields_readCatch h)) fun handler? hhandler => .skip fun finishes => ?_
  refine .read (.optional (yields_readBlock h)) fun finalizer? hfinalizer => ?_
  refine .ite (fun _ => .failHere) fun hguarded => .skip fun span => .pure (.intro ?_ ?_)
  · cases handler? with
    | none => cases finalizer? with
      | none => exact absurd rfl hguarded
      | some finalizer => exact .inr nofun
    | some handler => exact .inl nofun
  · refine List.forall_mem_cons.mpr ⟨hblock, List.forall_mem_append.mpr ?_⟩
    exact ⟨List.forall_mem_map.mpr hhandler, List.forall_mem_map.mpr hfinalizer⟩

theorem yields_readClauseTest (h : nt.Yielding input) :
    Yields input now (readClauseTest nt) fun test? => Each (WellFormedAs .expr) test?.toList := by
  unfold readClauseTest
  refine .skip fun tested => .ite (fun _ => ?_) fun _ => .skip fun _ => .pure nofun
  exact .read (h.expr .none) fun test htest => .pure (List.forall_mem_singleton.mpr htest)

theorem yields_readClause (h : nt.Yielding input) :
    Yields input now (readClause nt) (Each (WellFormedAs .clause)) := by
  refine .skip fun start => .read (yields_readClauseTest h) fun test? htest => .skip fun _ => ?_
  refine .read (.collectUntil (yields_body h)) fun body hbody => .skip fun span => .pure ?_
  refine List.forall_mem_singleton.mpr (.intro trivial (List.forall_mem_append.mpr ?_))
  exact ⟨List.forall_mem_map.mpr htest, List.forall_mem_map.mpr hbody⟩

theorem yields_readSwitch (h : nt.Yielding input) :
    Yields input now (readSwitch nt) (WellFormedAs .stmt) := by
  refine .skip fun word => .read (yields_readCondition h) fun subject hsubject => .skip fun _ => ?_
  refine .read (.collectUntil (yields_readClause h)) fun clauses hclauses => .skip fun _ => ?_
  refine .skip fun span => .pure (.intro trivial (List.forall_mem_cons.mpr ⟨hsubject, ?_⟩))
  exact List.forall_mem_map.mpr hclauses

theorem yields_readClassStmt (h : nt.Yielding input) :
    Yields input now (readClassStmt nt) (WellFormedAs .stmt) := by
  refine .skip fun word => .skip fun name => .read (yields_readClassTail h) fun tail htail => ?_
  refine .skip fun span => .pure (.intro trivial (List.forall_mem_append.mpr ?_))
  exact ⟨List.forall_mem_map.mpr htail.1, List.forall_mem_map.mpr htail.2⟩

theorem yields_readForm (h : nt.Yielding input) (form : StatementForm) :
    Yields input now (readForm nt form) (WellFormedAs .stmt) := by
  cases form with
  | varDeclaration => exact yields_readVariablesStmt h
  | imports => exact yields_readImports
  | exports => exact yields_readExports h
  | conditional => exact yields_readConditionalStmt h
  | block =>
      refine .read (yields_readBlock h) fun block hblock => .pure (.intro trivial ?_)
      exact List.forall_mem_singleton.mpr hblock
  | function => exact yields_readFunctionStmt h
  | result => exact yields_readResult h
  | whileLoop => exact yields_readWhile h
  | doWhile => exact yields_readDoWhile h
  | forLoop => exact yields_readFor h
  | leave => exact yields_readJump fun span => wellFormed_bare trivial rfl
  | skip => exact yields_readJump fun span => wellFormed_bare trivial rfl
  | empty => exact yields_readEmpty
  | guarded => exact yields_readGuarded h
  | raise => exact yields_readRaise h
  | switch => exact yields_readSwitch h
  | classDef => exact yields_readClassStmt h

theorem yields_readExpressionStmt (h : nt.Yielding input) :
    Yields input now (readExpressionStmt nt) (WellFormedAs .stmt) := by
  refine .read (h.expr .none).anywhere fun value hvalue => .skip fun _ => .pure ?_
  exact wellFormed_of_value trivial rfl hvalue

theorem yields_readStmt (h : nt.Yielding input) :
    Yields input now (readStmt nt) (WellFormedAs .stmt) := by
  refine .see_input fun token _ => .peek_input fun next => .at_input ?_
  split
  · exact .to_input (yields_readForm h _)
  · split
    · exact .to_input (yields_readLabeled h)
    · exact .to_input (yields_readExpressionStmt h)

end Statements

theorem nonterminals_yielding (hscript : input.grammar = .script) (depth : Nat) :
    (nonterminals depth).Yielding input := by
  induction depth with
  | zero => exact ⟨fun _ => .exhausted, .exhausted, .exhausted⟩
  | succ depth ih =>
      exact ⟨fun power => yields_readExpr hscript ih power, yields_readStmt ih,
        yields_readPattern ih⟩

theorem yields_readScript (h : nt.Yielding input) :
    Yields input now (readScript nt) (WellFormedAs .block) := by
  refine .read (.collectUntil (yields_body h)) fun body hbody => .skip fun stop => .pure ?_
  exact wellFormed_block hbody

end Grammar

namespace Script

/-- Whatever the tokens are, no node of a script that is read from them has a
shape that its form rules out. -/
theorem wellFormed_root {file : String} {tokens : List Token} {script : Script}
    (h : ofTokens file tokens = .ok script) : (Node.block script.root).WellFormed := by
  obtain ⟨after, hrun, -⟩ := ofTokens_ok h
  have hinner : (Grammar.nonterminals (Grammar.depthOf (.ofList tokens))).Yielding
      ⟨.ofList tokens, file, .script⟩ := Grammar.nonterminals_yielding rfl _
  have hroot : Reader.Yields ⟨.ofList tokens, file, .script⟩ Reader.anything
      (Grammar.readScript (Grammar.nonterminals (Grammar.depthOf (.ofList tokens))))
      (Grammar.WellFormedAs .block) := Grammar.yields_readScript hinner
  exact hroot _ _ _ trivial hrun

/-- A sequence of a compound assignment and a name. -/
theorem wellFormed_of_sequence :
    ∃ script, ofTokens "sequence.js"
        [⟨.identifier, "a", ⟨0, 1⟩, false⟩, ⟨.plusEquals, "+=", ⟨2, 4⟩, false⟩,
          ⟨.identifier, "b", ⟨5, 6⟩, false⟩, ⟨.comma, ",", ⟨6, 7⟩, false⟩,
          ⟨.identifier, "a", ⟨8, 9⟩, false⟩] = .ok script ∧
      (Node.block script.root).WellFormed := by
  obtain ⟨script, hread⟩ : ∃ script, ofTokens "sequence.js"
      [⟨.identifier, "a", ⟨0, 1⟩, false⟩, ⟨.plusEquals, "+=", ⟨2, 4⟩, false⟩,
        ⟨.identifier, "b", ⟨5, 6⟩, false⟩, ⟨.comma, ",", ⟨6, 7⟩, false⟩,
        ⟨.identifier, "a", ⟨8, 9⟩, false⟩] = .ok script := ⟨_, rfl⟩
  exact ⟨script, hread, wellFormed_root hread⟩

end Script

end ScriptKinds
