import ScriptKinds.Grammar.Script
import ScriptKinds.Proofs.Grammar.ExpressionDerivation
import ScriptKinds.Proofs.Grammar.SourceRanges

namespace ScriptKinds

namespace Grammar

open Reader Constituent

variable {input : Input} {nt : Nonterminals} {now : Token → Prop} {held : List Constituent}

section Statements

theorem derives_readDeclarator (h : nt.Deriving input) (kind : DeclarationKind) :
    Derives input now [] (readDeclarator nt kind) (oneNode .declarator) := by
  refine .skip fun start => .node_then (derives_readTarget h _) fun target => ?_
  refine derives_readDefault h fun value? value hvalue => ?_
  split
  · exact .failHere
  · exact .failHere
  · exact .skip fun span => .node (.declarator hvalue)

/-- A declaration of variables without what ends it. -/
inductive Variables : Stmt → List Constituent → Prop
  | intro {word : Token} {declarators : List Declarator} {inner : List Constituent} {span : Span}
      (hword : OpensStmt .varDeclaration word)
      (hinner : Separated (declarators.map .declarator) inner) :
      Variables (.varDeclaration (declarationKind word) declarators span) (.token word :: inner)

theorem derives_readVariables (h : nt.Deriving input) :
    Derives input (OpensStmt .varDeclaration) [] (readVariables nt) Variables := by
  refine .take fun word hword => ?_
  refine .read (.separated (derives_readDeclarator h _)) fun declarators inner hinner => ?_
  exact .skip fun span => .pure (.intro hword hinner)

theorem derives_readVariablesStmt (h : nt.Deriving input) :
    Derives input (OpensStmt .varDeclaration) [] (readVariablesStmt nt) (oneNode .stmt) := by
  refine .seq (derives_readVariables h) ?_
  rintro _ _ ⟨hword, hinner⟩
  exact .terminator fun ending hending => .node (.varDeclaration hword hinner hending)

theorem derives_importBinding {α : Type} {good : α → List Constituent → Prop} {token : Token}
    {next : ImportBinding → Reader α} (hkind : token.kind = .identifier)
    (hnext : ∀ binding,
      Derives input now (held ++ [Constituent.node (.binding binding)]) (next binding) good) :
    Derives input now (held ++ [Constituent.token token]) (importBinding token >>= next) good := by
  unfold importBinding
  rw [bind_assoc]
  refine .skip fun id => .wrap_last ?_ (hnext ⟨⟨token.text, id⟩, token.span⟩)
  exact .binding hkind

abbrev importItems (bindings : List ImportBinding) : List Constituent → Prop :=
  listOf (fun _ => True) .binding bindings

theorem importItems_append {bindings more : List ImportBinding} {parts others : List Constituent}
    (h : importItems bindings parts) (hmore : importItems more others) :
    importItems (bindings ++ more) (parts ++ others) := by
  rw [importItems, listOf, List.map_append]
  exact h.append hmore

theorem importItems_token {bindings : List ImportBinding} {parts : List Constituent}
    (h : importItems bindings parts) (token : Token) :
    importItems bindings (parts ++ [Constituent.token token]) := by
  have htoken : importItems [] [.token token] := .mark trivial .nil
  simpa using importItems_append h htoken

theorem importItems_binding {bindings : List ImportBinding} {parts : List Constituent}
    (h : importItems bindings parts) (binding : ImportBinding) :
    importItems (bindings ++ [binding]) (parts ++ [Constituent.node (.binding binding)]) :=
  importItems_append h (.node .nil)

theorem derives_readImportItem : Derives input now [] readImportItem importItems := by
  unfold readImportItem
  refine .see fun imported _ => .ite (fun _ => .take_seen ?_) (fun _ => .fail)
  refine .see fun token _ => ?_
  extract_lets bind
  have hbind {front : List Constituent} (hfront : importItems [] front) (name : Token)
      (hname : name.kind = .identifier) :
      Derives input anything (front ++ [Constituent.token name]) (bind name) importItems := by
    refine derives_importBinding hname fun binding => .separator fun comma hcomma => .pure ?_
    exact (importItems_binding hfront binding).append (hcomma.imp fun _ _ => trivial)
  refine .ite (fun _ => .take_seen (.expect fun name hname => ?_)) (fun _ => ?_)
  · exact hbind (.mark trivial (.mark trivial .nil)) name hname
  · refine .ite (fun hkind => .given ?_) fun _ => .fail
    exact (hbind .nil imported (beq_iff_eq.mp hkind)).anywhere

theorem derives_readImportBindings : Derives input now [] readImportBindings importItems := by
  unfold readImportBindings
  refine .see fun word _ => ?_
  extract_lets others
  have hothers {whole : List ImportBinding} {held : List Constituent}
      (hwhole : importItems whole held) :
      Derives input anything held (others whole) importItems := by
    refine .skipIf_else (fun star _ => .expectWord fun as _ => .expect fun name hname => ?_) ?_
    · refine derives_importBinding hname fun binding => .pure ?_
      have hmarks := importItems_token (importItems_token hwhole star) as
      exact importItems_binding hmarks binding
    · refine .skipIf_else (fun opening _ => ?_) (.pure hwhole)
      refine .read (.list derives_readImportItem) fun named inner hinner => ?_
      refine .expect fun closing _ => .pure ?_
      exact importItems_token (importItems_append (importItems_token hwhole opening) hinner) closing
  refine .ite (fun hkind => .take_seen ?_) (fun _ => .given (hothers .nil).anywhere)
  refine derives_importBinding (beq_iff_eq.mp hkind) fun binding => ?_
  have hbinding : importItems [binding] [.node (.binding binding)] := .node .nil
  refine .skipIf fun present comma hcomma => .given (hothers ?_)
  cases hcomma with
  | absent => exact hbinding
  | present => exact importItems_token hbinding _

theorem derives_readImports :
    Derives input (OpensStmt .imports) [] readImports (oneNode .stmt) := by
  unfold readImports
  refine .take fun word hword => .see fun source _ => .ite (fun _ => .take_seen ?_) fun _ => ?_
  · refine .terminator fun ending hending => .skip fun span => .node ?_
    exact .imports hword (.mark trivial .nil) hending
  · refine .read derives_readImportBindings.anywhere fun bindings inner hinner => ?_
    refine .expectWord fun «from» _ => .expect fun source _ => .terminator fun ending hending => ?_
    have hinner := importItems_token (importItems_token hinner «from») source
    exact .skip fun span => .node_of (.imports hword hinner hending) (by simp)

theorem derives_readFunctionStmt (h : nt.Deriving input) :
    Derives input (OpensStmt .function) [] (readFunctionStmt nt) (oneNode .stmt) := by
  refine .take fun word hword => derives_readName fun name id hname => ?_
  refine .read (derives_readParameters h) fun parameters inner hinner => ?_
  refine .node_then (derives_readBlock h) fun body => .skip fun span => .node ?_
  exact .function hword hname hinner

theorem derives_readDefaultExport (h : nt.Deriving input) :
    Derives input now [] (readDefaultExport nt) (oneNode .stmt) := by
  unfold readDefaultExport
  refine .skip fun next => .see fun token _ => .ite (fun hfunction => ?_) (fun _ => ?_)
  · have hkind : OpensStmt .function token := by simp_all [OpensStmt, Grammar.script]
    exact (derives_readFunctionStmt h).of_seen hkind
  · refine .node_then (h.expr .comma).anywhere fun value => .terminator fun ending hending => ?_
    exact .node (.expression hending)

/-- Tokens that nothing is made of. -/
abbrev Unread (parts : List Constituent) : Prop :=
  Listed (fun _ => True) [] parts

theorem Unread.token {parts : List Constituent} (h : Unread parts) (token : Token) :
    Unread (parts ++ [Constituent.token token]) :=
  h.append (.mark trivial .nil)

theorem derives_readExportItem :
    Derives input now [] readExportItem fun _ parts => Unread parts := by
  unfold readExportItem
  refine .see fun token _ => .ite (fun _ => .take_seen ?_) fun _ => .skip fun token => .fail
  exact .pure (.mark trivial .nil)

theorem derives_readExportList :
    Derives input (fun token => token.kind = .openCurly ∨ token.kind = .star) [] readExportList
      (oneNode .stmt) := by
  unfold readExportList
  refine .take fun opening hopening => ?_
  extract_lets finish source
  have hfinish (result : PUnit) {inner : List Constituent} (hinner : Unread inner) :
      Derives input anything (.token opening :: inner) (finish result) (oneNode .stmt) := by
    refine .terminator fun ending hending => .skip fun span => .node ?_
    exact .exportList hopening hinner hending
  have hsource (result : PUnit) {inner : List Constituent} (hinner : Unread inner) :
      Derives input anything (.token opening :: inner) (source result) (oneNode .stmt) := by
    refine .see fun token _ => .ite (fun _ => .take_seen ?_) fun _ => (hfinish () hinner).anywhere
    exact .expect fun path _ => hfinish () ((hinner.token token).token path)
  refine .ite (fun _ => ?_) (fun _ => .see fun token _ => .ite (fun _ => .take_seen ?_) fun _ => ?_)
  · refine .read (.collectUntil .nil .append derives_readExportItem) fun _ inner hinner => ?_
    exact .expect fun closing _ => hsource () (Unread.token hinner closing)
  · exact .expect fun name _ => hsource () (.mark trivial (.mark trivial .nil))
  · exact (hsource () .nil).anywhere

theorem derives_readExports (h : nt.Deriving input) :
    Derives input (OpensStmt .exports) [] (readExports nt) (oneNode .stmt) := by
  unfold readExports
  refine .take fun word hword => .see fun token _ => ?_
  extract_lets finish
  have hfinish {isDefault : Bool} {front : List Constituent}
      (hfront : Marked (Token.isWord "default" · = true) isDefault front) (declaration : Stmt) :
      Derives input anything (.token word :: front ++ [Constituent.node (.stmt declaration)])
        (finish declaration) (oneNode .stmt) :=
    .skip fun span => .node (.exports hword hfront)
  refine .see ?_
  rintro token rfl
  refine .ite (fun hdefault => .take_seen ?_) (fun _ => .ite (fun hlist => ?_) fun _ => ?_)
  · exact .node_then (derives_readDefaultExport h) (hfinish (.present hdefault))
  · have hopening : token.kind = .openCurly ∨ token.kind = .star := by simpa using hlist
    exact .node_then (derives_readExportList.of_seen hopening) (hfinish .absent)
  · exact .node_then h.stmt.anywhere (hfinish .absent)

theorem derives_readCondition {α : Type} {good : α → List Constituent → Prop}
    {next : Expr → Reader α} (h : nt.Deriving input)
    (hnext : ∀ condition parts, Condition condition parts →
      Derives input anything (held ++ parts) (next condition) good) :
    Derives input now held (readCondition nt >>= next) good := by
  have hcondition : Derives input now [] (readCondition nt) Condition := by
    refine .expect fun _ hopening => .node_then (h.expr .none) fun condition => ?_
    exact .expect fun _ hclosing => .pure (.intro hopening hclosing)
  exact .read hcondition hnext

theorem derives_readConditionalStmt (h : nt.Deriving input) :
    Derives input (OpensStmt .conditional) [] (readConditionalStmt nt) (oneNode .stmt) := by
  refine .take fun word hword => derives_readCondition h fun condition test htest => ?_
  refine .node_then h.stmt fun consequent => .introduced h.stmt fun alternate? other hother => ?_
  exact .skip fun span => .node_of (.conditionalStmt hword htest hother) (by simp)

theorem derives_readWhile (h : nt.Deriving input) :
    Derives input (OpensStmt .whileLoop) [] (readWhile nt) (oneNode .stmt) := by
  refine .take fun word hword => derives_readCondition h fun condition test htest => ?_
  exact .node_then h.stmt fun body => .skip fun span => .node (.whileLoop hword htest)

theorem derives_readDoWhile (h : nt.Deriving input) :
    Derives input (OpensStmt .doWhile) [] (readDoWhile nt) (oneNode .stmt) := by
  refine .take fun first hfirst => .node_then h.stmt fun body => .expect fun word hword => ?_
  refine derives_readCondition h fun condition test htest => .skipIf fun present mark hmark => ?_
  exact .skip fun span => .node (.doWhile hfirst hword htest hmark)

theorem opens_declaration {token : Token}
    (h : TokenStream.declarationWords.contains token.kind = true) :
    OpensStmt .varDeclaration token := by
  have hall : ∀ kind ∈ TokenKind.all, TokenStream.declarationWords.contains kind = true →
      Grammar.script.statement? kind = some .varDeclaration := by decide
  exact hall _ (TokenKind.mem_all _) h

theorem derives_readForEach (h : nt.Deriving input) {word opening : Token}
    (hword : OpensStmt .forLoop word) (hopening : opening.kind = .openParen) (start : Nat) :
    Derives input now [.token word, .token opening] (readForEach nt start) (oneNode .stmt) := by
  unfold readForEach
  refine .see fun token _ => ?_
  extract_lets rest
  have hrest {kind? : Option DeclarationKind} {declaration : List Constituent}
      (hdeclaration : LoopDeclaration kind? declaration) :
      Derives input anything ([Constituent.token word, .token opening] ++ declaration) (rest kind?)
        (oneNode .stmt) := by
    refine .node_then (derives_readTarget h _) fun target => .take fun subjectWord _ => ?_
    refine .node_then (h.expr .none) fun subject => .expect fun closing hclosing => ?_
    refine .node_then h.stmt fun body => .skip fun id => .skip fun span => ?_
    exact .node_of (.forEach hword hopening hdeclaration hclosing) (by simp)
  refine .ite (fun hdeclared => .take_seen (.given ?_)) fun _ => .given (hrest .absent).anywhere
  exact hrest (.present (opens_declaration hdeclared))

theorem derives_readLoopStart (h : nt.Deriving input) :
    Derives input now [] (readLoopStart nt) fun init? parts =>
      parts = init?.toList.map fun init => .bare (.stmt init) := by
  unfold readLoopStart
  refine .skip fun missing => .ite (fun _ => .pure rfl) (fun _ => .see fun token _ => ?_)
  refine .ite (fun hdeclared => ?_) (fun _ => ?_)
  · refine .read ((derives_readVariables h).of_seen (opens_declaration hdeclared)) ?_
    rintro _ _ ⟨hword, hinner⟩
    exact .wrap_bare (.declaration hword hinner) (.pure rfl)
  · exact .node_then (h.expr .none).anywhere fun value => .wrap_bare .expression (.pure rfl)

theorem derives_readForParts (h : nt.Deriving input) {word opening : Token}
    (hword : OpensStmt .forLoop word) (hopening : opening.kind = .openParen) (start : Nat) :
    Derives input now [.token word, .token opening] (readForParts nt start) (oneNode .stmt) := by
  refine .read (derives_readLoopStart h) fun init? parts hinit => .expect fun first hfirst => ?_
  refine .skip fun _ => .read (.optional fun _ => (h.expr .none)) fun condition? test htest => ?_
  refine .expect fun second hsecond => .skip fun _ => ?_
  refine .read (.optional fun _ => (h.expr .none)) fun update? update hupdate => ?_
  refine .expect fun closing hclosing => .node_then h.stmt fun body => .skip fun id => ?_
  refine .skip fun span => .node_of (.forLoop hword hopening hfirst hsecond hclosing) ?_
  simp [hinit, htest, hupdate]

theorem derives_readFor (h : nt.Deriving input) :
    Derives input (OpensStmt .forLoop) [] (readFor nt) (oneNode .stmt) := by
  unfold readFor
  refine .take fun word hword => .expect fun opening hopening => .skip fun each => ?_
  refine .ite (fun _ => ?_) (fun _ => ?_)
  · exact derives_readForEach h hword hopening _
  · exact derives_readForParts h hword hopening _

theorem derives_readResult (h : nt.Deriving input) :
    Derives input (OpensStmt .result) [] (readResult nt) (oneNode .stmt) := by
  refine .take fun word hword => .see fun token _ => ?_
  extract_lets ends
  have hvalue : Derives input (· = token) [] (Reader.optional (!ends) (nt.expr .none))
      fun value? parts => ∀ ending span, Terminator ending →
        Production (.stmt (.result value? span)) (.token word :: (parts ++ ending)) := by
    unfold Reader.optional
    -- A value is read only if it begins on the line of the word, so its first token is kept.
    refine .ite (fun hstays => .ahead (.node_then (h.expr .none).anywhere fun value => ?_)) ?_
    · refine .pure fun ending span hending => .result hword ?_ hending
      cases hline : token.newlineBefore
      · rfl
      · simp [ends, hline] at hstays
    · exact fun _ => .pure fun ending span hending => .plainResult hword hending
  refine .read hvalue fun value? parts hparts => .terminator fun ending hending => ?_
  exact .skip fun span => .node (hparts ending span hending)

theorem derives_readJump {form : StatementForm} {jump : Span → Stmt}
    (hjump : ∀ {word labeled label ending}, OpensStmt form word → Marked JumpLabel labeled label →
      Terminator ending →
        Production (.stmt (jump word.span)) (.token word :: (label ++ ending))) :
    Derives input (OpensStmt form) [] (readJump jump) (oneNode .stmt) := by
  unfold readJump
  refine .take fun word hword => .see fun label _ => ?_
  extract_lets finish
  have hfinish (result : PUnit) {labeled : Bool} {parts : List Constituent}
      (hlabel : Marked JumpLabel labeled parts) :
      Derives input anything (.token word :: parts) (finish result) (oneNode .stmt) :=
    .terminator fun ending hending => .node (hjump hword hlabel hending)
  refine .ite (fun hlabel => .take_seen (hfinish () (.present ?_))) fun _ => ?_
  · simpa [JumpLabel] using hlabel
  · exact (hfinish () .absent).anywhere

theorem derives_readEmpty : Derives input (OpensStmt .empty) [] readEmpty (oneNode .stmt) :=
  .take fun _ htoken => .node (.empty (htoken.kind_eq (by decide)))

theorem derives_readLabeled (h : nt.Deriving input) :
    Derives input (OfKind .identifier) [] (readLabeled nt) (oneNode .stmt) := by
  refine .take fun label hlabel => .expect fun colon hcolon => .node_then h.stmt fun body => ?_
  exact .skip fun span => .node (.labeled hlabel hcolon)

theorem derives_readRaise (h : nt.Deriving input) :
    Derives input (OpensStmt .raise) [] (readRaise nt) (oneNode .stmt) := by
  refine .take fun word hword => .node_then (h.expr .none) fun value => ?_
  exact .terminator fun ending hending => .skip fun span => .node (.raise hword hending)

theorem derives_readCatch (h : nt.Deriving input) :
    Derives input (OfKind .catchWord) [] (readCatch nt) (oneNode .handler) := by
  have hparameter : Derives input anything [] (readCatchParameter nt) fun target parts =>
      ∃ closing, closing.kind = .closeParen ∧ parts = [.node (.target target), .token closing] :=
    .node_then (derives_readTarget h _) fun _ => .expect fun closing hclosing =>
      .pure ⟨closing, hclosing, rfl⟩
  refine .take fun word hword => .behind hparameter ?_ ?_
  · exact .node_then (derives_readBlock h) fun body => .skip fun span => .node (.plainHandler hword)
  · rintro opening target _ hopening ⟨closing, hclosing, rfl⟩
    refine .node_then (derives_readBlock h) fun body => .skip fun span => ?_
    exact .node (.handler hword hopening hclosing)

theorem derives_readGuarded (h : nt.Deriving input) :
    Derives input (OpensStmt .guarded) [] (readGuarded nt) (oneNode .stmt) := by
  refine .take fun word hword => .node_then (derives_readBlock h) fun block => ?_
  refine .see fun token _ => ?_
  have hhandler : (token.kind == .catchWord) = true →
      Derives input (· = token) [] (readCatch nt) (oneNode .handler) :=
    fun hcatch => (derives_readCatch h).of_seen (show token.kind = .catchWord by simpa using hcatch)
  refine .read (.optional hhandler) fun handler? handler hhandler => ?_
  refine .introduced (derives_readBlock h) fun finalizer? finalizer hfinalizer => ?_
  refine .ite (fun _ => .failHere) fun _ => .skip fun span => ?_
  exact .node_of (.guarded hword hfinalizer) (by simp [hhandler])

theorem derives_readClauseTest (h : nt.Deriving input) :
    Derives input now [] (readClauseTest nt) ClauseHead := by
  unfold readClauseTest
  refine .skipIf_else (fun word hword => ?_) (.expectWord fun word hword => .pure (.default hword))
  exact .node_then (h.expr .none) fun test => .pure (.case hword)

theorem derives_readClause (h : nt.Deriving input) :
    Derives input now [] (readClause nt) (runOf .clause) := by
  refine .skip fun start => .read (derives_readClauseTest h) fun test? head hhead => ?_
  refine .expect fun colon hcolon => .read (.run (.turn h.stmt)) fun body _ hbody => ?_
  have hclause (span : Span) : Production (.clause ⟨test?, body, span⟩)
      ([] ++ head ++ [Constituent.token colon] ++ stmts body) := by
    simpa using Production.clause hhead hcolon
  exact .skip fun span => hbody ▸ .wrap (hclause span) (.pure rfl)

theorem derives_readSwitch (h : nt.Deriving input) :
    Derives input (OpensStmt .switch) [] (readSwitch nt) (oneNode .stmt) := by
  refine .take fun word hword => derives_readCondition h fun subject test htest => ?_
  refine .expect fun opening hopening => .read (.run (derives_readClause h)) ?_
  refine fun clauses _ hclauses => .expect fun closing hclosing => .skip fun span => ?_
  exact .node_of (.switch hword htest hopening hclosing) (by simp [hclauses])

theorem derives_readClassStmt (h : nt.Deriving input) :
    Derives input (OpensStmt .classDef) [] (readClassStmt nt) (oneNode .stmt) := by
  refine .take fun word hword => derives_readName fun name id hname => ?_
  refine .read (derives_readClassTail h) fun tail parts htail => .skip fun span => ?_
  exact .node (.classStmt hword hname htail)

theorem derives_readForm (h : nt.Deriving input) (form : StatementForm) :
    Derives input (OpensStmt form) [] (readForm nt form) (oneNode .stmt) := by
  cases form with
  | varDeclaration => exact derives_readVariablesStmt h
  | imports => exact derives_readImports
  | exports => exact derives_readExports h
  | conditional => exact derives_readConditionalStmt h
  | block => exact .node_then (derives_readBlock h) fun block => .node .blockStmt
  | function => exact derives_readFunctionStmt h
  | result => exact derives_readResult h
  | whileLoop => exact derives_readWhile h
  | doWhile => exact derives_readDoWhile h
  | forLoop => exact derives_readFor h
  | leave => exact derives_readJump .leave
  | skip => exact derives_readJump .skip
  | empty => exact derives_readEmpty
  | guarded => exact derives_readGuarded h
  | raise => exact derives_readRaise h
  | switch => exact derives_readSwitch h
  | classDef => exact derives_readClassStmt h

theorem derives_readExpressionStmt (h : nt.Deriving input) :
    Derives input now [] (readExpressionStmt nt) (oneNode .stmt) :=
  .node_then (h.expr .none).anywhere fun _ => .terminator fun _ hending =>
    .node (.expression hending)

theorem derives_readStmt (h : nt.Deriving input) :
    Derives input now [] (readStmt nt) (oneNode .stmt) := by
  refine .of_script fun hscript => .see_input fun token _ => .peek_input fun next => .at_input ?_
  rw [hscript]
  split
  · exact .to_input ((derives_readForm h _).of_seen ‹_›)
  · split
    · rename_i hlabel
      have hkind : OfKind .identifier token := beq_iff_eq.mp (Bool.and_eq_true_iff.mp hlabel).1
      exact .to_input ((derives_readLabeled h).of_seen hkind)
    · exact .to_input (derives_readExpressionStmt h)

end Statements

theorem nonterminals_deriving (input : Input) (depth : Nat) :
    (nonterminals depth).Deriving input := by
  induction depth with
  | zero => exact ⟨fun _ => .exhausted, .exhausted, .exhausted⟩
  | succ depth ih =>
      exact ⟨fun power => derives_readExpr ih power, derives_readStmt ih, derives_readPattern ih⟩

theorem derived_readScript (h : nt.Deriving input) (hscript : input.grammar = .script)
    {before after : Progress} {root : Block}
    (hrun : readScript nt input before = .ok root after) :
    (input.tokens.get after.place).kind = .endOfInput ∧
      Derivation input.tokens before.place after.place (stmts root.body) := by
  obtain ⟨body, middle, hbody, hrest⟩ := bind_ok hrun
  have hends : (!((input.tokens.get middle.place).kind != .endOfInput)) = true :=
    finished_of_collectUntil hbody
  have hderives : Derives input anything [] (collectUntil (return !(← hasTokens))
      (return [← nt.stmt])) (runOf .stmt) := .run (.turn h.stmt)
  obtain ⟨_, rfl, hderived⟩ := hderives hscript _ _ _ _ trivial hbody .nil
  cases hrest
  exact ⟨by simpa using hends, hderived⟩

end Grammar

namespace Script

/-- The statements of a script are derived from its tokens, one behind the
other, up to a token that ends the text. -/
theorem derivation {file : String} {tokens : List Token} {script : Script}
    (h : ofTokens file tokens = .ok script) :
    ∃ last, ((TokenStream.ofList tokens).get last).kind = .endOfInput ∧
      Grammar.Derivation (.ofList tokens) 0 last (Grammar.Constituent.stmts script.root.body) := by
  obtain ⟨after, hrun, _⟩ := ofTokens_ok h
  exact ⟨after.place, Grammar.derived_readScript (Grammar.nonterminals_deriving _ _) rfl hrun⟩

end Script

end ScriptKinds
