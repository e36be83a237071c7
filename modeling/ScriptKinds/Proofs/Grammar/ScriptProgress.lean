import ScriptKinds.Grammar.Script
import ScriptKinds.Proofs.Grammar.ExpressionProgress
import ScriptKinds.Proofs.Grammar.ScriptSpelling

namespace ScriptKinds

namespace Grammar

open Reader

variable {input : Input} {total : Prop} {now : Token → Prop} {floor : Nat} {nt : Nonterminals}

section Statements

theorem advances_readDeclarator (h : nt.Live input total floor) (kind : DeclarationKind) :
    Advances input total now floor (readDeclarator nt kind) strictly := by
  refine .skip fun start => .move (advances_readTarget h _) fun target => ?_
  refine .read (advances_readDefault h.later) fun value? => ?_
  split
  · exact .failHere
  · exact .failHere
  · exact .skip fun span => .pure nofun

theorem advances_readVariables (h : nt.Live input total (floor + 1)) :
    Advances input total continues floor (readVariables nt) strictly := by
  refine .take (fun _ => id) fun word => .read (.separated (advances_readDeclarator h _)) ?_
  exact fun declarators => .skip fun span => .pure nofun

theorem advances_readVariablesStmt (h : nt.Live input total (floor + 1)) :
    Advances input total continues floor (readVariablesStmt nt) strictly :=
  .move (advances_readVariables h) fun _ => .read .expectSemicolon fun _ => .pure nofun

instance (token : Token) : Still (importBinding token) := by
  unfold importBinding
  infer_instance

theorem advances_readImportItem :
    Advances input total now floor readImportItem strictly := by
  unfold readImportItem
  refine .see fun imported _ => .ite (fun hname => .take_name ?_ fun _ => ?_) fun _ => .fail
  · rintro _ rfl
    rcases Bool.or_eq_true_iff.mp hname with hword | hstring
    · simp [Token.isMemberName, hword]
    · simp [Token.isMemberName, hstring]
  · refine .skip fun renamed => ?_
    extract_lets bind
    have hbind (name : Token) :
        Advances input total anything (floor + 1) (bind name) weakly :=
      .skip fun binding => .read .separator fun _ => .pure nofun
    refine .ite (fun _ => .read .pass fun _ => .read (.expect nofun) hbind) fun _ => ?_
    exact .ite (fun _ => .given (hbind _)) fun _ => .fail

theorem advances_readImportBindings :
    Advances input total now floor readImportBindings weakly := by
  unfold readImportBindings
  refine .skip fun named => ?_
  extract_lets rest
  have hrest (whole : List ImportBinding) :
      Advances input total anything floor (rest whole) weakly := by
    refine .read .skipIf fun star => .ite (fun _ => .read .expectWord fun _ => ?_) fun _ => ?_
    · exact .read (.expect nofun) fun name => .skip fun binding => .pure nofun
    · refine .read .skipIf fun braced => .ite (fun _ => ?_) fun _ => .pure nofun
      refine .read (.collectUntil advances_readImportItem) fun named => ?_
      exact .read (.expect nofun) fun _ => .pure nofun
  refine .ite (fun _ => .read .pass fun word => ?_) fun _ => .given (hrest []).anywhere
  exact .skip fun binding => .read .skipIf fun _ => .given (hrest [binding])

theorem advances_readImports : Advances input total continues floor readImports strictly := by
  unfold readImports
  refine .take (fun _ => id) fun word => .skip fun bare => .ite (fun _ => ?_) fun _ => ?_
  · exact .read .pass fun source => .read .expectSemicolon fun _ => .skip fun span => .pure nofun
  · refine .read advances_readImportBindings fun bindings => .read .expectWord fun _ => ?_
    refine .read (.expect nofun) fun source => .read .expectSemicolon fun _ => ?_
    exact .skip fun span => .pure nofun

theorem advances_readFunctionStmt (h : nt.Live input total (floor + 1)) :
    Advances input total continues floor (readFunctionStmt nt) strictly := by
  refine .take (fun _ => id) fun word => .read (advances_readName _) fun name => ?_
  refine .read (advances_readParameters h.later) fun parameters => ?_
  exact .read (advances_readBlock h.later) fun body => .skip fun span => .pure nofun

theorem advances_readDefaultExport (h : nt.Live input total floor) :
    Advances input total now floor (readDefaultExport nt) weakly := by
  unfold readDefaultExport
  refine .skip fun next => .see fun token _ => .ite (fun hfunction => ?_) fun _ => ?_
  · have hkind : token.kind = .functionWord := beq_iff_eq.mp (Bool.and_eq_true_iff.mp hfunction).1
    apply Advances.weaken
    apply Advances.given_now _ (advances_readFunctionStmt h.later)
    exact fun _ hsame => hsame ▸ continues_of_kind hkind nofun
  · exact .read (h.expr .comma).anywhere fun value => .read .expectSemicolon fun _ => .pure nofun

theorem advances_readExportItem : Advances input total now floor readExportItem strictly := by
  unfold readExportItem
  refine .see fun token _ => .ite (fun hmore => .take ?_ fun _ => .pure nofun) fun _ => ?_
  · rintro _ rfl
    exact bne_iff_ne.mp hmore
  · exact .skip fun token => .fail

theorem advances_readExportList : Advances input total now floor readExportList weakly := by
  unfold readExportList
  refine .read .pass fun opening => ?_
  extract_lets finish source
  have hfinish (result : PUnit) : Advances input total anything floor (finish result) weakly :=
    .read .expectSemicolon fun _ => .skip fun span => .pure nofun
  have hsource (result : PUnit) : Advances input total anything floor (source result) weakly := by
    refine .skip fun present => .ite (fun _ => ?_) fun _ => hfinish ()
    exact .read .pass fun _ => .read (.expect nofun) fun _ => hfinish ()
  refine .ite (fun _ => ?_) fun _ => .skip fun renamed => .ite (fun _ => ?_) fun _ => hsource ()
  · refine .read (.collectUntil advances_readExportItem) fun _ => ?_
    exact .read (.expect nofun) fun _ => hsource ()
  · exact .read .pass fun _ => .read (.expect nofun) fun _ => hsource ()

theorem advances_readExports (h : nt.Live input total (floor + 1)) :
    Advances input total continues floor (readExports nt) strictly := by
  unfold readExports
  refine .take (fun _ => id) fun word => .skip fun isDefault => ?_
  extract_lets finish
  have hfinish (declaration : Stmt) :
      Advances input total anything (floor + 1) (finish declaration) weakly :=
    .skip fun span => .pure nofun
  refine .skip fun listed => .ite (fun _ => .read .pass fun _ => ?_) fun _ => ?_
  · exact .read (advances_readDefaultExport h) hfinish
  · refine .ite (fun _ => ?_) fun _ => ?_
    · exact .read advances_readExportList hfinish
    · exact .read h.stmt hfinish

theorem advances_readCondition (h : nt.Live input total floor) :
    Advances input total now floor (readCondition nt) strictly := by
  refine .move (.expect nofun) fun _ => .read (h.later.expr .none) fun condition => ?_
  exact .read (.expect nofun) fun _ => .pure nofun

theorem advances_readConditionalStmt (h : nt.Live input total (floor + 1)) :
    Advances input total continues floor (readConditionalStmt nt) strictly := by
  refine .take (fun _ => id) fun word => .read (advances_readCondition h) fun condition => ?_
  refine .read h.stmt fun consequent => .read .skipIf fun present => ?_
  exact .read (.optional h.stmt) fun alternate? => .skip fun span => .pure nofun

theorem advances_readWhile (h : nt.Live input total (floor + 1)) :
    Advances input total continues floor (readWhile nt) strictly := by
  refine .take (fun _ => id) fun word => .read (advances_readCondition h) fun condition => ?_
  exact .read h.stmt fun body => .skip fun span => .pure nofun

theorem advances_readDoWhile (h : nt.Live input total (floor + 1)) :
    Advances input total continues floor (readDoWhile nt) strictly := by
  refine .take (fun _ => id) fun word => .read h.stmt fun body => .read (.expect nofun) fun _ => ?_
  refine .read (advances_readCondition h) fun condition => .read .skipIf fun _ => ?_
  exact .skip fun span => .pure nofun

instance : Still atForEachHead :=
  ⟨fun _ _ => ⟨_, _, rfl, rfl⟩⟩

theorem continues_of_declaration {token : Token}
    (h : TokenStream.declarationWords.contains token.kind = true) : continues token := by
  intro hends
  rw [hends] at h
  exact absurd h (by decide)

theorem advances_readForEach (h : nt.Live input total floor) (start : Nat) :
    Advances input total now floor (readForEach nt start) weakly := by
  unfold readForEach
  refine .skip fun declared => ?_
  extract_lets rest
  have hrest (kind? : Option DeclarationKind) :
      Advances input total anything floor (rest kind?) weakly := by
    refine .read (advances_readTarget h _) fun target => .read .pass fun word => ?_
    refine .read (h.expr .none) fun subject => .read (.expect nofun) fun _ => ?_
    exact .read h.stmt fun body => .skip fun id => .skip fun span => .pure nofun
  exact .ite (fun _ => .read .pass fun word => .given (hrest _)) fun _ => .given (hrest _).anywhere

theorem advances_readLoopStart (h : nt.Live input total floor) :
    Advances input total now floor (readLoopStart nt) weakly := by
  unfold readLoopStart
  refine .skip fun missing => .ite (fun _ => .pure nofun) fun _ => .see fun token _ => ?_
  refine .ite (fun hdeclared => ?_) fun _ => ?_
  · have hvariables : Advances input total (· = token) floor (readVariables nt) strictly :=
      (advances_readVariables h.later).given_now fun _ hsame =>
        hsame ▸ continues_of_declaration hdeclared
    exact .read hvariables fun declaration => .pure nofun
  · exact .read (h.expr .none).anywhere fun value => .pure nofun

theorem advances_readForParts (h : nt.Live input total floor) (start : Nat) :
    Advances input total now floor (readForParts nt start) weakly := by
  refine .read (advances_readLoopStart h) fun init? => .read (.expect nofun) fun _ => ?_
  refine .skip fun _ => .read (.optional (h.expr .none)) fun condition? => ?_
  refine .read (.expect nofun) fun _ => .skip fun _ => .read (.optional (h.expr .none)) ?_
  refine fun update? => .read (.expect nofun) fun _ => .read h.stmt fun body => ?_
  exact .skip fun id => .skip fun span => .pure nofun

theorem advances_readFor (h : nt.Live input total (floor + 1)) :
    Advances input total continues floor (readFor nt) strictly := by
  refine .take (fun _ => id) fun word => .read (.expect nofun) fun _ => .skip fun each => ?_
  refine .ite (fun _ => ?_) fun _ => ?_
  · exact advances_readForEach h _
  · exact advances_readForParts h _

theorem advances_readResult (h : nt.Live input total (floor + 1)) :
    Advances input total continues floor (readResult nt) strictly := by
  refine .take (fun _ => id) fun word => .skip fun token => .read (.optional (h.expr .none)) ?_
  exact fun value? => .read .expectSemicolon fun _ => .skip fun span => .pure nofun

theorem advances_readJump (jump : Span → Stmt) :
    Advances input total continues floor (readJump jump) strictly := by
  unfold readJump
  refine .take (fun _ => id) fun word => .skip fun label => ?_
  extract_lets finish
  have hfinish (result : PUnit) :
      Advances input total anything (floor + 1) (finish result) weakly :=
    .read .expectSemicolon fun _ => .pure nofun
  exact .ite (fun _ => .read .pass fun _ => hfinish ()) fun _ => hfinish ()

theorem advances_readEmpty : Advances input total continues floor readEmpty strictly :=
  .take (fun _ => id) fun _ => .pure nofun

theorem advances_readLabeled (h : nt.Live input total (floor + 1)) :
    Advances input total continues floor (readLabeled nt) strictly := by
  refine .take (fun _ => id) fun label => .read (.expect nofun) fun _ => .read h.stmt fun body => ?_
  exact .skip fun span => .pure nofun

theorem advances_readRaise (h : nt.Live input total (floor + 1)) :
    Advances input total continues floor (readRaise nt) strictly := by
  refine .take (fun _ => id) fun word => .read (h.expr .none) fun value => ?_
  exact .read .expectSemicolon fun _ => .skip fun span => .pure nofun

theorem advances_readCatch (h : nt.Live input total floor) :
    Advances input total now floor (readCatch nt) weakly := by
  have hparameter : Advances input total anything floor (readCatchParameter nt) strictly :=
    .move (advances_readTarget h _) fun _ => .read (.expect nofun) fun _ => .pure nofun
  refine .read .pass fun word => .read .skipIf fun named => .read (.optional hparameter) ?_
  exact fun parameter? => .read (advances_readBlock h.later) fun body => .skip fun _ => .pure nofun

theorem advances_readGuarded (h : nt.Live input total (floor + 1)) :
    Advances input total continues floor (readGuarded nt) strictly := by
  refine .take (fun _ => id) fun word => .read (advances_readBlock h.later) fun block => ?_
  refine .skip fun caught => .read (.optional (advances_readCatch h)) fun handler? => ?_
  refine .read .skipIf fun finishes => .read (.optional (advances_readBlock h.later)) ?_
  exact fun finalizer? => .ite (fun _ => .failHere) fun _ => .skip fun span => .pure nofun

instance : Still atClauseEnd := by
  unfold atClauseEnd
  infer_instance

theorem advances_readClauseTest (h : nt.Live input total floor) :
    Advances input total now floor (readClauseTest nt) weakly := by
  unfold readClauseTest
  refine .read .skipIf fun tested => .ite (fun _ => ?_) fun _ => ?_
  · exact .read (h.expr .none) fun test => .pure nofun
  · exact .read .expectWord fun _ => .pure nofun

theorem advances_readClause (h : nt.Live input total floor) :
    Advances input total now floor (readClause nt) strictly := by
  refine .skip fun start => .read (advances_readClauseTest h) fun test? => ?_
  refine .move (.expect nofun) fun _ => .read (.collectUntil (advances_body h.later)) ?_
  exact fun body => .skip fun span => .pure nofun

theorem advances_readSwitch (h : nt.Live input total (floor + 1)) :
    Advances input total continues floor (readSwitch nt) strictly := by
  refine .take (fun _ => id) fun word => .read (advances_readCondition h) fun subject => ?_
  refine .read (.expect nofun) fun _ => .read (.collectUntil (advances_readClause h)) ?_
  exact fun clauses => .read (.expect nofun) fun _ => .skip fun span => .pure nofun

theorem advances_readClassStmt (h : nt.Live input total (floor + 1)) :
    Advances input total continues floor (readClassStmt nt) strictly := by
  refine .take (fun _ => id) fun word => .read (advances_readName _) fun name => ?_
  exact .read (advances_readClassTail h) fun tail => .skip fun span => .pure nofun

theorem advances_readForm (h : nt.Live input total (floor + 1)) (form : StatementForm) :
    Advances input total continues floor (readForm nt form) strictly := by
  cases form with
  | varDeclaration => exact advances_readVariablesStmt h
  | imports => exact advances_readImports
  | exports => exact advances_readExports h
  | conditional => exact advances_readConditionalStmt h
  | block => exact .move (advances_readBlock h) fun _ => .pure nofun
  | function => exact advances_readFunctionStmt h
  | result => exact advances_readResult h
  | whileLoop => exact advances_readWhile h
  | doWhile => exact advances_readDoWhile h
  | forLoop => exact advances_readFor h
  | leave => exact advances_readJump _
  | skip => exact advances_readJump _
  | empty => exact advances_readEmpty
  | guarded => exact advances_readGuarded h
  | raise => exact advances_readRaise h
  | switch => exact advances_readSwitch h
  | classDef => exact advances_readClassStmt h

theorem advances_readStmt
    (hexpr : ∀ power, Advances input total anything floor (nt.expr power) strictly)
    (h : nt.Live input total (floor + 1)) :
    Advances input total now floor (readStmt nt) strictly := by
  refine .of_terminated fun hterminated => .see_input fun token _ => .peek_input fun next => ?_
  refine .at_input ?_
  split
  · rename_i form hform
    have hcontinues : continues token := by
      intro hkind
      rw [hkind, hterminated.statement] at hform
      cases hform
    refine .to_input ((advances_readForm h form).given_now ?_)
    exact fun _ hsame => hsame ▸ hcontinues
  · split
    · rename_i hlabel
      have hkind : token.kind = .identifier := beq_iff_eq.mp (Bool.and_eq_true_iff.mp hlabel).1
      refine .to_input ((advances_readLabeled h).given_now ?_)
      exact fun _ hsame => hsame ▸ continues_of_kind hkind nofun
    · refine .to_input (.move (hexpr .none).anywhere fun value => ?_)
      exact .read .expectSemicolon fun _ => .pure nofun

theorem advances_readScript (h : nt.Live input total floor) :
    Advances input total now floor (readScript nt) weakly :=
  .read (.collectUntil (advances_body h)) fun _ => .skip fun _ => .pure nofun

end Statements

section Nesting

theorem Nonterminals.Live.beyond (h : input.tokens.body.size < floor) :
    nt.Live input total floor :=
  ⟨fun _ => .beyond h, .beyond h, .beyond h⟩

/-- From a place on, twice as many levels as there are tokens are enough.  An
expression needs one level less than a statement, which may start with one. -/
theorem nonterminals_suffice (depth : Nat) : ∀ floor,
    (2 * (input.tokens.body.size + 1 - floor) ≤ depth + 1 →
      ∀ power, Advances input True anything floor ((nonterminals depth).expr power) strictly) ∧
    (2 * (input.tokens.body.size + 1 - floor) ≤ depth →
      (nonterminals depth).Live input True floor) := by
  induction depth with
  | zero =>
      intro floor
      exact ⟨fun hdepth power => .beyond (by omega), fun hdepth => .beyond (by omega)⟩
  | succ depth ih =>
      intro floor
      have hinner (hdepth : 2 * (input.tokens.body.size + 1 - floor) ≤ depth + 2) :
          (nonterminals depth).Live input True (floor + 1) :=
        (ih (floor + 1)).2 (by omega)
      constructor
      · exact fun hdepth power => advances_readExpr (hinner hdepth) power
      · intro hdepth
        have hnext := hinner (Nat.le_succ_of_le hdepth)
        exact ⟨fun power => advances_readExpr hnext power,
          advances_readStmt ((ih floor).1 hdepth) hnext, advances_readPattern hnext⟩

end Nesting

end Grammar

end ScriptKinds
