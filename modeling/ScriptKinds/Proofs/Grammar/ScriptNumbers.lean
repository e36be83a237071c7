import ScriptKinds.Grammar.Script
import ScriptKinds.Proofs.Grammar.ExpressionNumbers

namespace ScriptKinds

namespace Grammar

open Reader

variable {nt : Nonterminals}

section Statements

theorem carries_readDeclarator (h : nt.Carrying) (kind : DeclarationKind) :
    Carries 0 (readDeclarator nt kind) Declarator.numbered := by
  refine .skip fun start => .read (carries_readTarget h _) fun target => ?_
  refine .read (carries_readDefault h) fun value? => ?_
  split
  · exact .failHere
  · exact .failHere
  · refine .skip fun span => .pure ?_
    simp only [targetNumbered, Declarator.numbered, numbersOf_append]
    abel

theorem carries_readVariables (h : nt.Carrying) :
    Carries 0 (readVariables nt) Stmt.numbered := by
  refine .skip fun word => .read (.separated (carries_readDeclarator h _)) fun declarators => ?_
  exact .skip fun span => .pure (by simp)

theorem carries_readVariablesStmt (h : nt.Carrying) :
    Carries 0 (readVariablesStmt nt) Stmt.numbered :=
  .read (carries_readVariables h) fun _ => .skip fun _ => .pure (zero_add _)

/-- The numbered nodes of imported names. -/
def bindingNumbered (bindings : List ImportBinding) : List Numbered :=
  bindings.flatMap fun binding => [.name binding.name]

theorem carries_importBinding (token : Token) :
    Carries 0 (importBinding token) (fun binding => [.name binding.name]) :=
  .fresh fun id => .pure (by simp [Numbered.id])

theorem carries_readImportItem : Carries 0 readImportItem bindingNumbered := by
  unfold readImportItem
  refine .skip fun imported =>
    .ite (fun _ => .skip fun _ => .skip fun renamed => ?_) (fun _ => .fail)
  extract_lets bind
  have hbind (name : Token) : Carries 0 (bind name) bindingNumbered :=
    .read (carries_importBinding name) fun _ => .skip fun _ => .pure (by simp [bindingNumbered])
  refine .ite (fun _ => .skip fun _ => .skip hbind) (fun _ => ?_)
  exact .ite (fun _ => .skip hbind) (fun _ => .skip hbind)

theorem carries_readImportBindings : Carries 0 readImportBindings bindingNumbered := by
  unfold readImportBindings
  refine .skip fun default => ?_
  extract_lets rest
  have hrest (whole : List ImportBinding) :
      Carries (numbersOf (bindingNumbered whole)) (rest whole) bindingNumbered := by
    refine .skip fun star => .ite (fun _ => ?_) (fun _ => ?_)
    · refine .skip fun _ => .skip fun token => .read (carries_importBinding token) fun binding => ?_
      exact .pure (by simp [bindingNumbered])
    · refine .skip fun braced => .ite (fun _ => ?_) (fun _ => .pure rfl)
      refine .read (.collectUntil carries_readImportItem) fun named => .skip fun _ => .pure ?_
      simp [bindingNumbered]
  refine .ite (fun _ => ?_) (fun _ => .given (hrest []))
  refine .skip fun token => .read (carries_importBinding token) fun binding => .skip fun _ => ?_
  rw [zero_add]
  exact .given (hrest [binding])

theorem carries_readImports : Carries 0 readImports Stmt.numbered := by
  unfold readImports
  refine .skip fun word => .skip fun bare => .ite (fun _ => ?_) (fun _ => ?_)
  · exact .skip fun source => .skip fun _ => .skip fun span => .pure (by simp)
  · refine .read carries_readImportBindings fun bindings => .skip fun _ => .skip fun source => ?_
    refine .skip fun _ => .skip fun span => .pure ?_
    rw [zero_add, Stmt.numbered, bindingNumbered, List.map_eq_flatMap]

theorem carries_readFunctionStmt (h : nt.Carrying) :
    Carries 0 (readFunctionStmt nt) Stmt.numbered := by
  refine .skip fun word => .read (carries_readName _) fun result => ?_
  refine .read (carries_readParameters h) fun parameters =>
    .read (carries_readBlock h) fun body => ?_
  refine .skip fun span => .pure ?_
  rw [numbersOf_parameters]
  simp only [Stmt.numbered, numbersOf_cons, numbersOf_append, numbersOf_nil]
  abel

theorem numbersOf_expressionStmt (value : Expr) :
    numbersOf (expressionStmt value).numbered = numbersOf value.numbered := by
  simp [expressionStmt]

theorem carries_readDefaultExport (h : nt.Carrying) :
    Carries 0 (readDefaultExport nt) Stmt.numbered := by
  unfold readDefaultExport
  refine .skip fun next => .skip fun isFunction => .ite (fun _ => carries_readFunctionStmt h) ?_
  refine fun _ => .read (h.expr .comma) fun value => .skip fun _ => .pure ?_
  rw [numbersOf_expressionStmt, zero_add]

instance : Silent readExportItem := by
  unfold readExportItem
  infer_instance

theorem carries_readExportList : Carries 0 readExportList Stmt.numbered := by
  unfold readExportList
  refine .skip fun opening => ?_
  extract_lets finish source
  have hfinish (result : PUnit) : Carries 0 (finish result) Stmt.numbered :=
    .skip fun _ => .skip fun span => .pure (by simp)
  have hsource (result : PUnit) : Carries 0 (source result) Stmt.numbered := by
    refine .skip fun present => .ite (fun _ => ?_) (fun _ => hfinish ())
    exact .skip fun _ => .skip fun _ => hfinish ()
  refine .ite (fun _ => .skip fun _ => .skip fun _ => hsource ()) (fun _ => .skip fun renamed => ?_)
  exact .ite (fun _ => .skip fun _ => .skip fun _ => hsource ()) (fun _ => hsource ())

theorem carries_readExports (h : nt.Carrying) : Carries 0 (readExports nt) Stmt.numbered := by
  unfold readExports
  refine .skip fun word => .skip fun isDefault => ?_
  extract_lets finish
  have hfinish (declaration : Stmt) :
      Carries (0 + numbersOf declaration.numbered) (finish declaration) Stmt.numbered :=
    .skip fun span => .pure (by simp)
  refine .skip fun listed => .ite (fun _ => .skip fun _ => ?_) (fun _ => ?_)
  · exact .read (carries_readDefaultExport h) hfinish
  · refine .ite (fun _ => ?_) (fun _ => ?_)
    · exact .read carries_readExportList hfinish
    · exact .read h.stmt hfinish

theorem carries_readCondition (h : nt.Carrying) :
    Carries 0 (readCondition nt) Expr.numbered :=
  .skip fun _ => .read (h.expr .none) fun _ => .skip fun _ => .pure (zero_add _)

theorem carries_readConditionalStmt (h : nt.Carrying) :
    Carries 0 (readConditionalStmt nt) Stmt.numbered := by
  refine .skip fun word => .read (carries_readCondition h) fun condition => ?_
  refine .read h.stmt fun consequent => .skip fun present => ?_
  refine .read (.optional h.stmt) fun alternate? => .skip fun span => .pure ?_
  simp [add_assoc]

theorem carries_readWhile (h : nt.Carrying) : Carries 0 (readWhile nt) Stmt.numbered := by
  refine .skip fun word => .read (carries_readCondition h) fun condition => ?_
  exact .read h.stmt fun body => .skip fun span => .pure (by simp)

theorem carries_readDoWhile (h : nt.Carrying) : Carries 0 (readDoWhile nt) Stmt.numbered := by
  refine .skip fun word => .read h.stmt fun body => .skip fun _ => ?_
  refine .read (carries_readCondition h) fun condition => .skip fun _ => .skip fun span => .pure ?_
  simp

instance : Silent atForEachHead :=
  ⟨fun h => by cases h; rfl⟩

theorem carries_readForEach (h : nt.Carrying) (start : Nat) :
    Carries 0 (readForEach nt start) Stmt.numbered := by
  unfold readForEach
  refine .skip fun declared => ?_
  extract_lets rest
  have hrest (kind? : Option DeclarationKind) : Carries 0 (rest kind?) Stmt.numbered := by
    refine .read (carries_readTarget h _) fun target => .skip fun word => ?_
    refine .read (h.expr .none) fun subject => .skip fun _ => .read h.stmt fun body => ?_
    refine .fresh fun id => .skip fun span => .pure ?_
    simp only [Stmt.numbered, targetNumbered, numbersOf_cons, numbersOf_append, Numbered.id]
    abel
  refine .ite (fun _ => .skip fun word => ?_) (fun _ => .given (hrest none))
  exact .given (hrest _)

theorem carries_readLoopStart (h : nt.Carrying) :
    Carries 0 (readLoopStart nt) (fun init? => stmtNumbered? init?) := by
  unfold readLoopStart
  refine .skip fun missing => .ite (fun _ => .pure rfl) (fun _ => .skip fun declared => ?_)
  refine .ite (fun _ => ?_) (fun _ => ?_)
  · exact .read (carries_readVariables h) fun stmt => .pure (by simp)
  · refine .read (h.expr .none) fun value => .pure ?_
    simp [numbersOf_expressionStmt]

theorem carries_readForParts (h : nt.Carrying) (start : Nat) :
    Carries 0 (readForParts nt start) Stmt.numbered := by
  refine .read (carries_readLoopStart h) fun init? => .skip fun _ => .skip fun _ => ?_
  refine .read (.optional (h.expr .none)) fun condition? => .skip fun _ => .skip fun _ => ?_
  refine .read (.optional (h.expr .none)) fun update? => .skip fun _ => .read h.stmt fun body => ?_
  refine .fresh fun id => .skip fun span => .pure ?_
  simp only [Stmt.numbered, exprNumbered?_eq, numbersOf_cons, numbersOf_append, Numbered.id]
  abel

theorem carries_readFor (h : nt.Carrying) : Carries 0 (readFor nt) Stmt.numbered := by
  unfold readFor
  refine .skip fun word => .skip fun _ => .skip fun each => .ite (fun _ => ?_) (fun _ => ?_)
  · exact carries_readForEach h _
  · exact carries_readForParts h _

theorem carries_readResult (h : nt.Carrying) : Carries 0 (readResult nt) Stmt.numbered := by
  refine .skip fun word => .skip fun token => .read (.optional (h.expr .none)) fun value? => ?_
  exact .skip fun _ => .skip fun span => .pure (by simp)

theorem carries_readJump {jump : Span → Stmt} (hjump : ∀ span, (jump span).numbered = []) :
    Carries 0 (readJump jump) Stmt.numbered := by
  unfold readJump
  refine .skip fun word => .skip fun label => ?_
  extract_lets finish
  have hfinish (result : PUnit) : Carries 0 (finish result) Stmt.numbered :=
    .skip fun _ => .pure (by rw [hjump, numbersOf_nil])
  exact .ite (fun _ => .skip fun _ => hfinish ()) (fun _ => hfinish ())

theorem carries_readEmpty : Carries 0 readEmpty Stmt.numbered :=
  .skip fun _ => .pure (by simp)

theorem carries_readLabeled (h : nt.Carrying) : Carries 0 (readLabeled nt) Stmt.numbered := by
  refine .skip fun label => .skip fun _ => .read h.stmt fun body => .skip fun span => .pure ?_
  simp

theorem carries_readRaise (h : nt.Carrying) : Carries 0 (readRaise nt) Stmt.numbered := by
  refine .skip fun word => .read (h.expr .none) fun value => .skip fun _ => ?_
  exact .skip fun span => .pure (by simp)

theorem carries_readCatchParameter (h : nt.Carrying) :
    Carries 0 (readCatchParameter nt) targetNumbered :=
  .read (carries_readTarget h _) fun _ => .skip fun _ => .pure (zero_add _)

/-- The numbered nodes of a catch clause. -/
def handlerNumbered (handler : CatchClause) : List Numbered :=
  handlerNumbered? (some handler)

theorem handlerNumbered_eq (handler : CatchClause) :
    handlerNumbered handler =
      handler.parameter?.toList.flatMap targetNumbered ++ handler.body.numbered := by
  obtain ⟨parameter?, body, span⟩ := handler
  cases parameter? <;> simp [handlerNumbered, handlerNumbered?, targetNumbered]

theorem handlerNumbered?_eq (handler? : Option CatchClause) :
    handlerNumbered? handler? = handler?.toList.flatMap handlerNumbered := by
  cases handler? with
  | none => rfl
  | some handler => exact (List.append_nil _).symm

theorem carries_readCatch (h : nt.Carrying) : Carries 0 (readCatch nt) handlerNumbered := by
  refine .skip fun word => .skip fun named => ?_
  refine .read (.optional (carries_readCatchParameter h)) fun parameter? => ?_
  refine .read (carries_readBlock h) fun body => .skip fun span => .pure ?_
  rw [handlerNumbered_eq, numbersOf_append, zero_add]

theorem carries_readGuarded (h : nt.Carrying) : Carries 0 (readGuarded nt) Stmt.numbered := by
  refine .skip fun word => .read (carries_readBlock h) fun block => .skip fun _ => ?_
  refine .read (.optional (carries_readCatch h)) fun handler? => .skip fun _ => ?_
  refine .read (.optional (carries_readBlock h)) fun finalizer? => .ite (fun _ => .failHere) ?_
  refine fun _ => .skip fun span => .pure ?_
  rw [Stmt.numbered, handlerNumbered?_eq, blockNumbered?_eq, numbersOf_append, numbersOf_append,
    zero_add]

instance : Silent atClauseEnd := by
  unfold atClauseEnd
  infer_instance

theorem carries_readClauseTest (h : nt.Carrying) :
    Carries 0 (readClauseTest nt) (fun test? => exprNumbered? test?) := by
  unfold readClauseTest
  refine .skip fun tested => .ite (fun _ => ?_) (fun _ => ?_)
  · exact .read (h.expr .none) fun test => .pure (by simp)
  · exact .skip fun _ => .pure rfl

theorem carries_readClause (h : nt.Carrying) :
    Carries 0 (readClause nt) (·.flatMap SwitchClause.numbered) := by
  have hitem : Carries 0 (return [← nt.stmt]) (·.flatMap Stmt.numbered) :=
    .read h.stmt fun stmt => .pure (by simp)
  refine .skip fun start => .read (carries_readClauseTest h) fun test? => .skip fun _ => ?_
  refine .read (.collectUntil hitem) fun body => .skip fun span => .pure ?_
  simp [SwitchClause.numbered]

theorem carries_readSwitch (h : nt.Carrying) : Carries 0 (readSwitch nt) Stmt.numbered := by
  refine .skip fun word => .read (carries_readCondition h) fun subject => .skip fun _ => ?_
  refine .read (.collectUntil (carries_readClause h)) fun clauses => .skip fun _ => ?_
  exact .skip fun span => .pure (by simp)

theorem carries_readClassStmt (h : nt.Carrying) :
    Carries 0 (readClassStmt nt) Stmt.numbered := by
  refine .skip fun word => .read (carries_readName _) fun result => ?_
  refine .read (carries_readClassTail h) fun tail => .skip fun span => .pure ?_
  simp

theorem carries_readForm (h : nt.Carrying) (form : StatementForm) :
    Carries 0 (readForm nt form) Stmt.numbered := by
  cases form with
  | varDeclaration => exact carries_readVariablesStmt h
  | imports => exact carries_readImports
  | exports => exact carries_readExports h
  | conditional => exact carries_readConditionalStmt h
  | block => exact .read (carries_readBlock h) fun block => .pure (zero_add _)
  | function => exact carries_readFunctionStmt h
  | result => exact carries_readResult h
  | whileLoop => exact carries_readWhile h
  | doWhile => exact carries_readDoWhile h
  | forLoop => exact carries_readFor h
  | leave => exact carries_readJump fun span => rfl
  | skip => exact carries_readJump fun span => rfl
  | empty => exact carries_readEmpty
  | guarded => exact carries_readGuarded h
  | raise => exact carries_readRaise h
  | switch => exact carries_readSwitch h
  | classDef => exact carries_readClassStmt h

theorem carries_readExpressionStmt (h : nt.Carrying) :
    Carries 0 (readExpressionStmt nt) Stmt.numbered := by
  refine .read (h.expr .none) fun value => .skip fun _ => .pure ?_
  rw [numbersOf_expressionStmt, zero_add]

theorem carries_readStmt (h : nt.Carrying) : Carries 0 (readStmt nt) Stmt.numbered := by
  refine .skip_input fun token => .skip_input fun next => .of_input fun input => ?_
  split
  · exact .at_input (carries_readForm h _) input
  · split
    · exact .at_input (carries_readLabeled h) input
    · exact .at_input (carries_readExpressionStmt h) input

end Statements

theorem nonterminals_carrying (depth : Nat) : (nonterminals depth).Carrying := by
  induction depth with
  | zero => exact ⟨fun _ => .exhausted, .exhausted, .exhausted⟩
  | succ depth ih =>
      exact ⟨carries_readExpr ih, carries_readStmt ih, carries_readPattern ih⟩

theorem carries_readScript (h : nt.Carrying) :
    Carries 0 (readScript nt) (fun root => stmtNumbered root.body) := by
  have hitem : Carries 0 (return [← nt.stmt]) (·.flatMap Stmt.numbered) :=
    .read h.stmt fun stmt => .pure (by simp)
  exact .read (.collectUntil hitem) fun body => .skip fun stop => .pure (by simp)

end Grammar

namespace Script

theorem ofTokens_ok {file : String} {tokens : List Token} {script : Script}
    (h : ofTokens file tokens = .ok script) :
    ∃ after, Grammar.knot Grammar.readScript ⟨.ofList tokens, file, .script⟩ .start =
        .ok script.root after ∧ after.nextId = script.nextId := by
  unfold ofTokens at h
  dsimp only at h
  split at h
  · cases h
    exact ⟨_, ‹_›, rfl⟩
  · cases h

/-- The number 0 of the root and the numbers of its statements are together
those below the first number that has not been handed out. -/
theorem numbersOf_root {input : Input} {root : Block} {after : Progress}
    (h : Grammar.knot Grammar.readScript input .start = .ok root after) :
    root.id = 0 ∧ numbersOf root.numbered = Multiset.range after.nextId := by
  have hcarries := Grammar.carries_readScript (Grammar.nonterminals_carrying _) _ _ _ _ h
  obtain ⟨body, middle, _, hlast⟩ := Reader.bind_ok h
  obtain ⟨stop, last, _, hroot⟩ := Reader.bind_ok hlast
  cases hroot
  rw [add_zero] at hcarries
  exact ⟨rfl, hcarries⟩

theorem numbers_perm {file : String} {tokens : List Token} {script : Script}
    (h : ofTokens file tokens = .ok script) :
    (script.root.numbered.map Numbered.id).Perm (List.range script.nextId) := by
  obtain ⟨after, hrun, hnext⟩ := ofTokens_ok h
  rw [← hnext]
  exact Multiset.coe_eq_coe.mp (numbersOf_root hrun).2

theorem numbers_nodup {file : String} {tokens : List Token} {script : Script}
    (h : ofTokens file tokens = .ok script) : (script.root.numbered.map Numbered.id).Nodup :=
  (numbers_perm h).nodup_iff.mpr List.nodup_range

/-- The numbers in a script are those from 0 up to the one that would be handed
out next, and each of them occurs once.  The number 0 belongs to the root. -/
theorem numbers_perm_range {file : String} {tokens : List Token} {script : Script}
    (h : ofTokens file tokens = .ok script) :
    (script.root.numbered.map Numbered.id).Perm (List.range script.nextId) ∧
      script.root.id = 0 ∧ (∀ node ∈ stmtNumbered script.root.body, node.id ≠ 0) ∧
      ∃ after, (do
        let root ← Grammar.knot Grammar.readScript
        return (root, ← Reader.freshId)) ⟨.ofList tokens, file, .script⟩ .start =
          EStateM.Result.ok (script.root, script.nextId) after := by
  obtain ⟨after, hrun, hnext⟩ := ofTokens_ok h
  have hroot := (numbersOf_root hrun).1
  refine ⟨numbers_perm h, hroot, ?_, ?_⟩
  · -- A second node with the number 0 would make the root's number occur twice.
    intro node hnode hzero
    have hnodup := numbers_nodup h
    rw [Block.numbered_eq, List.map_cons, List.nodup_cons] at hnodup
    apply hnodup.1
    rw [Numbered.id, hroot, ← hzero]
    exact List.mem_map_of_mem hnode
  · refine ⟨{ after with nextId := script.nextId + 1 }, ?_⟩
    rw [← hnext]
    change EStateM.bind _ _ _ = _
    rw [EStateM.bind, hrun]
    rfl

/-- An arrow function takes over the number of the name before the arrow. -/
theorem numbers_of_arrow :
    ∃ script, ofTokens "arrow.js"
        [⟨.identifier, "x", ⟨0, 1⟩, false⟩, ⟨.arrow, "=>", ⟨2, 4⟩, false⟩,
          ⟨.identifier, "x", ⟨5, 6⟩, false⟩] = .ok script ∧
      (script.root.numbered.map Numbered.id).Perm [0, 1, 2, 3] := by
  obtain ⟨script, hread, hnext⟩ : ∃ script, ofTokens "arrow.js"
      [⟨.identifier, "x", ⟨0, 1⟩, false⟩, ⟨.arrow, "=>", ⟨2, 4⟩, false⟩,
        ⟨.identifier, "x", ⟨5, 6⟩, false⟩] = .ok script ∧ script.nextId = 4 := ⟨_, rfl, rfl⟩
  have hperm := (numbers_perm_range hread).1
  rw [hnext] at hperm
  exact ⟨script, hread, hperm⟩

end Script

end ScriptKinds
