import ScriptKinds.Grammar.Script
import ScriptKinds.Proofs.Grammar.ExpressionSpelling
import ScriptKinds.Proofs.Grammar.ScriptNumbers

namespace ScriptKinds

namespace Grammar

open Reader

variable {input : Input} {nt : Nonterminals} {now : Token → Prop}

section Statements

theorem spells_readDeclarator (h : nt.Spelling input) (kind : DeclarationKind) :
    Spells input now [] (readDeclarator nt kind) (asNode .declarator) := by
  refine .look fun token _ => .read (spells_readTarget h _) fun target => ?_
  refine .read (spells_readDefault h) fun value? => ?_
  split
  · exact .failHere
  · exact .failHere
  · rename_i hvalue
    refine .span fun stop => .node ⟨token, rfl, rfl⟩ rfl ?_ ?_
    · rintro rfl
      cases target with
      | name name => exact ⟨name, rfl⟩
      | pattern elements nestedDefaults => exact (hvalue _ _ rfl rfl).elim
    · simp [Node.children, Function.comp_def]

theorem spells_readVariables (h : nt.Spelling input) :
    Spells input now [] (readVariables nt) (asNode .stmt) := by
  refine .skip fun word => .read (.separated (spells_readDeclarator h _)) fun declarators => ?_
  refine .skip fun span => .node rfl rfl trivial ?_
  simp [Node.children, Stmt.children, Function.comp_def]

theorem spells_readVariablesStmt (h : nt.Spelling input) :
    Spells input now [] (readVariablesStmt nt) (asNode .stmt) :=
  .read (spells_readVariables h) fun _ => .skip fun _ => .same rfl

theorem spells_importBinding {token : Token} (htoken : Proceeds token) :
    Spells input now [.token token] (importBinding token) (asNode .binding) :=
  .skip fun _ => .node ⟨token, rfl, htoken, rfl⟩ rfl trivial rfl

theorem proceeds_of_kind {token : Token} {kind : TokenKind} (hkind : token.kind = kind)
    (hends : kind ≠ .endOfInput) : Proceeds token :=
  fun htoken => hends (hkind.symm.trans htoken)

theorem spells_readImportItem : Spells input now [] readImportItem (asNodes .binding) := by
  unfold readImportItem
  refine .see fun imported _ => .ite (fun _ => .take ?_) (fun _ => .fail)
  rintro imported rfl
  refine .skip fun renamed => ?_
  extract_lets bind
  have hbind (name : Token) (hname : Proceeds name) :
      Spells input anything [.token name] (bind name) (asNodes .binding) :=
    .seq (spells_importBinding hname) fun _ => .skip fun _ => .same rfl
  refine .ite (fun _ => .forget (.skip fun _ => .expect fun name hname => ?_)) (fun _ => ?_)
  · exact hbind name (proceeds_of_kind hname (by simp))
  · refine .ite (fun hkind => .given (hbind imported ?_)) (fun _ => .fail)
    exact proceeds_of_kind (beq_iff_eq.mp hkind) (by simp)

theorem spells_readImportBindings : Spells input now [] readImportBindings (asNodes .binding) := by
  unfold readImportBindings
  refine .see fun word _ => ?_
  extract_lets rest
  have hrest (whole : List ImportBinding) :
      Spells input anything (asNodes .binding whole) (rest whole) (asNodes .binding) := by
    refine .skip fun star => .ite (fun _ => .skip fun _ => .expect fun name hname => ?_) ?_
    · have hproceeds : Proceeds name := proceeds_of_kind hname (by simp)
      exact .frame (spells_importBinding hproceeds) fun binding => .same (by simp)
    · refine fun _ => .skip fun braced => .ite (fun _ => ?_) (fun _ => .same rfl)
      refine .read (.collectUntil spells_readImportItem) fun named => .skip fun _ => .same ?_
      simp
  refine .ite (fun hkind => .take ?_) (fun _ => .given (hrest []).anywhere)
  rintro word rfl
  have hproceeds : Proceeds word := proceeds_of_kind (beq_iff_eq.mp hkind) (by simp)
  refine .seq (spells_importBinding hproceeds) fun binding => .skip fun _ => ?_
  exact .given (hrest [binding])

theorem spells_readImports : Spells input now [] readImports (asNode .stmt) := by
  unfold readImports
  refine .skip fun word => .skip fun bare => .ite (fun _ => ?_) (fun _ => ?_)
  · exact .skip fun source => .skip fun _ => .skip fun span => .node rfl rfl trivial rfl
  · refine .read spells_readImportBindings fun bindings => .skip fun _ => .skip fun source => ?_
    refine .skip fun _ => .skip fun span => .node rfl rfl trivial ?_
    simp [Node.children, Stmt.children, Function.comp_def]

theorem spells_readFunctionStmt (h : nt.Spelling input) :
    Spells input Proceeds [] (readFunctionStmt nt) (asNode .stmt) := by
  refine .take fun word hword => .skip fun result => ?_
  refine .read (spells_readParameters h) fun parameters => ?_
  refine .read (spells_readBlock h) fun body => .span fun stop => ?_
  refine .node ⟨word, rfl, hword, rfl⟩ rfl trivial ?_
  simp [Node.children, Stmt.children, Function.comp_def]

theorem spells_readDefaultExport (h : nt.Spelling input) :
    Spells input now [] (readDefaultExport nt) (asNode .stmt) := by
  unfold readDefaultExport
  refine .skip fun next => .see fun token _ => .ite (fun hfunction => ?_) (fun _ => ?_)
  · have hkind : token.kind = .functionWord := by simp_all
    exact (spells_readFunctionStmt h).given_now fun _ hsame =>
      hsame ▸ proceeds_of_kind hkind (by simp)
  · exact .read (h.expr .comma).anywhere fun value => .skip fun _ => .node rfl rfl trivial rfl

instance : Forward readExportItem := by
  unfold readExportItem
  infer_instance

theorem spells_readExportList : Spells input now [] readExportList (asNode .stmt) := by
  unfold readExportList
  refine .skip fun opening => ?_
  extract_lets finish source
  have hfinish (result : PUnit) : Spells input anything [] (finish result) (asNode .stmt) :=
    .skip fun _ => .skip fun span => .node rfl rfl trivial rfl
  have hsource (result : PUnit) : Spells input anything [] (source result) (asNode .stmt) := by
    refine .skip fun present => .ite (fun _ => ?_) (fun _ => hfinish ())
    exact .skip fun _ => .skip fun _ => hfinish ()
  refine .ite (fun _ => .skip fun _ => .skip fun _ => hsource ()) (fun _ => .skip fun renamed => ?_)
  exact .ite (fun _ => .skip fun _ => .skip fun _ => hsource ()) (fun _ => hsource ())

theorem spells_readExports (h : nt.Spelling input) :
    Spells input now [] (readExports nt) (asNode .stmt) := by
  unfold readExports
  refine .skip fun word => .skip fun isDefault => ?_
  extract_lets finish
  have hfinish (declaration : Stmt) :
      Spells input anything ([] ++ asNode .stmt declaration) (finish declaration) (asNode .stmt) :=
    .skip fun span => .node rfl rfl trivial rfl
  refine .skip fun listed => .ite (fun _ => .skip fun _ => ?_) (fun _ => ?_)
  · exact .read (spells_readDefaultExport h) hfinish
  · refine .ite (fun _ => ?_) (fun _ => ?_)
    · exact .read spells_readExportList hfinish
    · exact .read h.stmt hfinish

theorem spells_readCondition (h : nt.Spelling input) :
    Spells input now [] (readCondition nt) (asNode .expr) :=
  .skip fun _ => .read (h.expr .none) fun _ => .skip fun _ => .same rfl

theorem spells_readConditionalStmt (h : nt.Spelling input) :
    Spells input now [] (readConditionalStmt nt) (asNode .stmt) := by
  refine .skip fun word => .read (spells_readCondition h) fun condition => ?_
  refine .read h.stmt fun consequent => .skip fun present => ?_
  refine .read (.optional fun _ => h.stmt) fun alternate? => .skip fun span => ?_
  refine .node rfl rfl trivial ?_
  simp [Node.children, Stmt.children, Function.comp_def]

theorem spells_readWhile (h : nt.Spelling input) :
    Spells input now [] (readWhile nt) (asNode .stmt) := by
  refine .skip fun word => .read (spells_readCondition h) fun condition => ?_
  exact .read h.stmt fun body => .skip fun span => .node rfl rfl trivial rfl

theorem spells_readDoWhile (h : nt.Spelling input) :
    Spells input now [] (readDoWhile nt) (asNode .stmt) := by
  refine .skip fun word => .read h.stmt fun body => .skip fun _ => ?_
  refine .read (spells_readCondition h) fun condition => .skip fun _ => .skip fun span => ?_
  exact .node rfl rfl trivial rfl

instance : Forward atForEachHead :=
  ⟨fun h => by cases h; exact Nat.le_refl _⟩

theorem spells_readForEach (h : nt.Spelling input) {word : Token} (hword : Proceeds word) :
    Spells input now [.token word] (readForEach nt word.span.start) (asNode .stmt) := by
  unfold readForEach
  refine .skip fun declared => ?_
  extract_lets rest
  have hrest (kind? : Option DeclarationKind) :
      Spells input anything [.token word] (rest kind?) (asNode .stmt) := by
    refine .read (spells_readTarget h _) fun target => .skip fun overValues => ?_
    refine .read (h.expr .none) fun subject => .skip fun _ => .read h.stmt fun body => ?_
    exact .skip fun id => .span fun stop => .node ⟨word, rfl, hword, rfl⟩ rfl trivial rfl
  exact .ite (fun _ => .skip fun _ => .given (hrest _)) (fun _ => .given (hrest none))

theorem spells_readLoopStart (h : nt.Spelling input) :
    Spells input now [] (readLoopStart nt) (fun init? => asNodes .stmt init?.toList) := by
  unfold readLoopStart
  refine .skip fun missing => .ite (fun _ => .same rfl) (fun _ => .skip fun declared => ?_)
  refine .ite (fun _ => ?_) (fun _ => ?_)
  · exact .read (spells_readVariables h) fun stmt => .same rfl
  · refine .read (h.expr .none) fun value => .pure fun first last hheld => ?_
    exact hheld.plain rfl rfl trivial

theorem spells_readForParts (h : nt.Spelling input) (start : Nat) :
    Spells input now [] (readForParts nt start) (asNode .stmt) := by
  refine .read (spells_readLoopStart h) fun init? => .skip fun _ => .skip fun _ => ?_
  refine .read (.optional fun _ => h.expr .none) fun condition? => .skip fun _ => .skip fun _ => ?_
  refine .read (.optional fun _ => h.expr .none) fun update? => .skip fun _ => ?_
  refine .read h.stmt fun body => .skip fun id => .skip fun span => .node rfl rfl trivial ?_
  simp [Node.children, Stmt.children, Function.comp_def]

theorem spells_readFor (h : nt.Spelling input) :
    Spells input Proceeds [] (readFor nt) (asNode .stmt) := by
  unfold readFor
  refine .take fun word hword => .skip fun _ => .skip fun each => .ite (fun _ => ?_) (fun _ => ?_)
  · exact spells_readForEach h hword
  · exact .forget (spells_readForParts h _)

theorem spells_readResult (h : nt.Spelling input) :
    Spells input now [] (readResult nt) (asNode .stmt) := by
  refine .skip fun word => .skip fun token => .read (.optional fun _ => h.expr .none) ?_
  refine fun value? => .skip fun _ => .skip fun span => .node rfl rfl trivial ?_
  simp [Node.children, Stmt.children, Function.comp_def]

theorem spells_readJump {jump : Span → Stmt}
    (hjump : ∀ span, (Node.stmt (jump span)).LedBy [] ∧ (jump span).children = []) :
    Spells input now [] (readJump jump) (asNode .stmt) := by
  unfold readJump
  refine .skip fun word => .skip fun label => ?_
  extract_lets finish
  have hfinish (result : PUnit) : Spells input anything [] (finish result) (asNode .stmt) := by
    obtain ⟨hled, hchildren⟩ := hjump word.span
    exact .skip fun _ => .node hled rfl trivial (by simp [Node.children, hchildren])
  exact .ite (fun _ => .skip fun _ => hfinish ()) (fun _ => hfinish ())

theorem spells_readEmpty : Spells input now [] readEmpty (asNode .stmt) :=
  .skip fun _ => .node rfl rfl trivial rfl

theorem spells_readLabeled (h : nt.Spelling input) :
    Spells input now [] (readLabeled nt) (asNode .stmt) := by
  refine .skip fun label => .skip fun _ => .read h.stmt fun body => .skip fun span => ?_
  exact .node rfl rfl trivial rfl

theorem spells_readRaise (h : nt.Spelling input) :
    Spells input now [] (readRaise nt) (asNode .stmt) := by
  refine .skip fun word => .read (h.expr .none) fun value => .skip fun _ => ?_
  exact .skip fun span => .node rfl rfl trivial rfl

theorem spells_readCatchParameter (h : nt.Spelling input) :
    Spells input now [] (readCatchParameter nt) (asNode .target) :=
  .read (spells_readTarget h _) fun _ => .skip fun _ => .same rfl

theorem spells_readCatch (h : nt.Spelling input) :
    Spells input Proceeds [] (readCatch nt) (asNode .handler) := by
  refine .take fun word hword => .skip fun named => ?_
  refine .read (.optional fun _ => spells_readCatchParameter h) fun parameter? => ?_
  refine .read (spells_readBlock h) fun body => .span fun stop => ?_
  refine .node ⟨word, rfl, hword, rfl⟩ rfl trivial ?_
  simp [Node.children, Function.comp_def]

theorem spells_readGuarded (h : nt.Spelling input) :
    Spells input now [] (readGuarded nt) (asNode .stmt) := by
  refine .skip fun word => .read (spells_readBlock h) fun block => .see fun token _ => ?_
  refine .read (.optional fun hcatch => (spells_readCatch h).given_now fun _ hsame => ?_) ?_
  · exact hsame ▸ proceeds_of_kind (beq_iff_eq.mp hcatch) (by simp)
  · refine fun handler? => .skip fun _ => .read (.optional fun _ => spells_readBlock h) ?_
    refine fun finalizer? => .ite (fun _ => .failHere) fun _ => .skip fun span => ?_
    refine .node rfl rfl trivial ?_
    simp [Node.children, Stmt.children, Function.comp_def]

instance : Forward atClauseEnd := by
  unfold atClauseEnd
  infer_instance

theorem spells_readClauseTest (h : nt.Spelling input) :
    Spells input now [] (readClauseTest nt) (fun test? => asNodes .expr test?.toList) := by
  unfold readClauseTest
  refine .skip fun tested => .ite (fun _ => ?_) (fun _ => ?_)
  · exact .read (h.expr .none) fun test => .same rfl
  · exact .skip fun _ => .same rfl

theorem spells_readClause (h : nt.Spelling input) :
    Spells input now [] (readClause nt) (asNodes .clause) := by
  have hitem : Spells input anything [] (return [← nt.stmt]) (asNodes .stmt) :=
    .read h.stmt fun stmt => .same rfl
  refine .skip fun start => .read (spells_readClauseTest h) fun test? => .skip fun _ => ?_
  refine .read (.collectUntil hitem) fun body => .skip fun span => ?_
  refine .single (.node rfl rfl trivial ?_)
  simp [Node.children, Function.comp_def]

theorem spells_readSwitch (h : nt.Spelling input) :
    Spells input now [] (readSwitch nt) (asNode .stmt) := by
  refine .skip fun word => .read (spells_readCondition h) fun subject => .skip fun _ => ?_
  refine .read (.collectUntil (spells_readClause h)) fun clauses => .skip fun _ => ?_
  refine .skip fun span => .node rfl rfl trivial ?_
  simp [Node.children, Stmt.children, Function.comp_def]

theorem spells_readClassStmt (h : nt.Spelling input) :
    Spells input Proceeds [] (readClassStmt nt) (asNode .stmt) := by
  refine .take fun word hword => .skip fun result => ?_
  refine .read (spells_readClassTail h) fun tail => .span fun stop => ?_
  refine .node ⟨word, rfl, hword, rfl⟩ rfl trivial ?_
  simp [Node.children, Stmt.children, Function.comp_def]

theorem spells_readForm (h : nt.Spelling input) (form : StatementForm) :
    Spells input Proceeds [] (readForm nt form) (asNode .stmt) := by
  cases form with
  | varDeclaration => exact spells_readVariablesStmt h
  | imports => exact spells_readImports
  | exports => exact spells_readExports h
  | conditional => exact spells_readConditionalStmt h
  | block => exact .read (spells_readBlock h) fun block => .node rfl rfl trivial rfl
  | function => exact spells_readFunctionStmt h
  | result => exact spells_readResult h
  | whileLoop => exact spells_readWhile h
  | doWhile => exact spells_readDoWhile h
  | forLoop => exact spells_readFor h
  | leave => exact spells_readJump fun span => ⟨rfl, rfl⟩
  | skip => exact spells_readJump fun span => ⟨rfl, rfl⟩
  | empty => exact spells_readEmpty
  | guarded => exact spells_readGuarded h
  | raise => exact spells_readRaise h
  | switch => exact spells_readSwitch h
  | classDef => exact spells_readClassStmt h

theorem spells_readExpressionStmt (h : nt.Spelling input) :
    Spells input now [] (readExpressionStmt nt) (asNode .stmt) :=
  .read (h.expr .none).anywhere fun _ => .skip fun _ => .node rfl rfl trivial rfl

theorem spells_readStmt (h : nt.Spelling input) :
    Spells input now [] (readStmt nt) (asNode .stmt) := by
  refine .of_closed fun hclosed => .see_input fun token _ => .peek_input fun next => .at_input ?_
  split
  · rename_i form hform
    have hproceeds : Proceeds token := by
      intro hkind
      rw [hkind, hclosed.statement] at hform
      cases hform
    exact .to_input (.given_now (fun _ hsame => hsame ▸ hproceeds) (spells_readForm h form))
  · split
    · exact .to_input (spells_readLabeled h)
    · exact .to_input (spells_readExpressionStmt h)

end Statements

theorem nonterminals_spelling (input : Input) (depth : Nat) :
    (nonterminals depth).Spelling input := by
  induction depth with
  | zero => exact ⟨fun _ => .exhausted, .exhausted, .exhausted⟩
  | succ depth ih =>
      exact ⟨fun power => spells_readExpr ih power, spells_readStmt ih, spells_readPattern ih⟩

theorem spells_readScript (h : nt.Spelling input) :
    Spells input now [] (readScript nt) (asNode .block) := by
  have hitem : Spells input anything [] (return [← nt.stmt]) (asNodes .stmt) :=
    .read h.stmt fun stmt => .same rfl
  refine .read (.collectUntil hitem) fun body => .skip fun stop => .node rfl rfl trivial ?_
  simp [Node.children, Function.comp_def]

end Grammar

namespace Script

theorem closed_ofList (file : String) (tokens : List Token) :
    (⟨.ofList tokens, file, .script⟩ : Input).Closed where
  ends := by
    unfold TokenStream.ofList
    split
    · rfl
    · split
      · exact beq_iff_eq.mp ‹_›
      · rfl
  leading := rfl
  statement := rfl

theorem spelled {file : String} {tokens : List Token} {script : Script}
    (h : ofTokens file tokens = .ok script) :
    ∃ last, Spelled (.ofList tokens) 0 last [.node (.block script.root)] := by
  obtain ⟨after, hrun, _⟩ := ofTokens_ok h
  have hspells : Reader.Spells ⟨.ofList tokens, file, .script⟩ Reader.anything []
      (Grammar.readScript (Grammar.nonterminals (Grammar.depthOf (.ofList tokens))))
      (Reader.asNode .block) :=
    Grammar.spells_readScript (Grammar.nonterminals_spelling _ _)
  exact ⟨after.place,
    hspells (closed_ofList file tokens) _ _ _ 0 trivial hrun (.nil (Nat.le_refl _))⟩

end Script

end ScriptKinds
