import ScriptKinds.Proofs.Grammar.ExpressionRanges
import ScriptKinds.Proofs.Grammar.Termination

namespace ScriptKinds

namespace Grammar

open Reader

variable {input : Input} {now : Token → Prop} {floor lo hi start stop : Nat} {nt : Nonterminals}

section Statements

theorem fits_stmt {stmt : Stmt} (hspan : stmt.span = ⟨start, stop⟩) (hlo : lo ≤ start)
    (hsolid : start < stop) (hhi : stop ≤ hi)
    (hchildren : ∀ child ∈ stmt.children, child.Fits start stop) : FitsAs .stmt lo hi stmt :=
  .spanned (congrArg some hspan) ⟨hlo, hsolid, hhi⟩ hchildren

theorem fits_expressionStmt {value : Expr} (h : FitsAs .expr lo hi value) :
    FitsAs .stmt lo hi (expressionStmt value) :=
  .spanned rfl (h.span_fits rfl) (List.forall_mem_singleton.mpr (h.tight rfl))

theorem fits_blockStmt {block : Block} (h : FitsAs .block lo hi block) :
    FitsAs .stmt lo hi (.block block) :=
  .spanned rfl (h.span_fits rfl) (List.forall_mem_singleton.mpr (h.tight rfl))

theorem ranges_readDeclarator (h : nt.Ranging input) (lo : Nat) (hlo : lo ≤ floor)
    (kind : DeclarationKind) :
    Ranges input now floor (readDeclarator nt kind) (FitsAs .declarator lo) := by
  refine .skip fun start => .read (ranges_readTarget h lo hlo _) fun target inner hinner htarget => ?_
  refine .read (ranges_readDefault h lo (by omega)) fun value? middle hmiddle hvalue => ?_
  split
  · exact .failHere
  · exact .failHere
  · refine .span fun stop hstop => .pure fun hi hhi => ?_
    exact fits_bound rfl rfl (htarget hi (by omega)) (hvalue hi (by omega))

theorem ranges_readVariables (h : nt.Ranging input) (lo : Nat) (hlo : lo ≤ floor) :
    Ranges input continues floor (readVariables nt) (FitsAs .stmt lo) := by
  refine .take (fun _ => id) fun word inner _ hword => ?_
  obtain ⟨hlower, hsolid, hupper⟩ := hword
  refine .read (.separated fun later hlater => ranges_readDeclarator h word.span.start (by omega) _)
    fun declarators middle hmiddle hdeclarators => ?_
  refine .span fun stop hstop => .pure fun hi hhi => ?_
  refine fits_stmt rfl (by omega) (by omega) hhi ?_
  exact List.forall_mem_map.mpr (hdeclarators stop (by omega))

theorem ranges_readVariablesStmt (h : nt.Ranging input) (lo : Nat) (hlo : lo ≤ floor) :
    Ranges input continues floor (readVariablesStmt nt) (FitsAs .stmt lo) := by
  refine .read (ranges_readVariables h lo hlo) fun declaration inner hinner hdeclaration => ?_
  exact .read .expectSemicolon fun _ last hlast _ => .pure fun hi hhi => hdeclaration hi (by omega)

theorem fits_bindings {bindings : List ImportBinding} : EachFits .binding lo hi bindings :=
  fun _ _ => .plain rfl nofun

theorem ranges_readImportItem (lo : Nat) :
    Ranges input now floor readImportItem (EachFits .binding lo) := by
  unfold readImportItem
  refine .see fun imported _ => .ite (fun hname => .take_name ?_ ?_) fun _ => ?_
  · rintro _ rfl
    rcases Bool.or_eq_true_iff.mp hname with hword | hstring
    · simp [Token.isMemberName, hword]
    · simp [Token.isMemberName, hstring]
  · rintro _ inner rfl ⟨hlower, hsolid, hupper⟩
    refine .skip fun renamed => ?_
    extract_lets bind
    have hbind (name : Token) {floor : Nat} :
        Ranges input anything floor (bind name) (EachFits .binding lo) :=
      .skip fun binding => .read .separator fun _ _ _ _ => .pure fun _ _ => fits_bindings
    refine .ite (fun _ => .read .pass fun _ _ _ _ => ?_) fun _ => ?_
    · exact .read (.expect (by decide)) fun _ _ _ _ => hbind _
    · exact .ite (fun _ => .given (hbind _)) fun _ => .fail_bind (by omega)
  · exact .fail_now fun _ hsame => hsame ▸ rfl

theorem ranges_readImportBindings (lo : Nat) :
    Ranges input now floor readImportBindings (EachFits .binding lo) := by
  unfold readImportBindings
  refine .skip fun named => ?_
  extract_lets rest
  have hrest (whole : List ImportBinding) {floor : Nat} :
      Ranges input anything floor (rest whole) (EachFits .binding lo) := by
    refine .read .skipIf fun star _ _ _ => .ite (fun _ => .read .expectWord fun _ _ _ _ => ?_)
      fun _ => ?_
    · exact .read (.expect nofun) fun name _ _ _ => .skip fun _ => .pure fun _ _ => fits_bindings
    · refine .read .skipIf fun braced _ _ _ => .ite (fun _ => ?_) fun _ =>
        .pure fun _ _ => fits_bindings
      refine .read (.collectUntil fun _ _ => ranges_readImportItem lo) fun _ _ _ _ => ?_
      exact .read (.expect nofun) fun _ _ _ _ => .pure fun _ _ => fits_bindings
  refine .ite (fun _ => .read .pass fun word _ _ _ => ?_) fun _ => .given (hrest []).anywhere
  exact .skip fun binding => .read .skipIf fun _ _ _ _ => .given (hrest [binding])

theorem ranges_readImports (lo : Nat) (hlo : lo ≤ floor) :
    Ranges input continues floor readImports (FitsAs .stmt lo) := by
  unfold readImports
  refine .take (fun _ => id) fun word inner _ hword => .skip fun bare => .ite (fun _ => ?_) fun _ => ?_
  · obtain ⟨hlower, hsolid, hupper⟩ := hword
    refine .read .pass fun source next hnext _ => .read .expectSemicolon fun _ last hlast _ => ?_
    refine .span fun stop hstop => .pure fun hi hhi => ?_
    exact fits_stmt rfl (by omega) (by omega) hhi (List.forall_mem_nil _)
  · obtain ⟨hlower, hsolid, hupper⟩ := hword
    refine .read (ranges_readImportBindings word.span.start) fun bindings next hnext _ => ?_
    refine .read .expectWord fun _ middle hmiddle _ => .read (.expect nofun) ?_
    refine fun source behind hbehind _ => .read .expectSemicolon fun _ last hlast _ => ?_
    refine .span fun stop hstop => .pure fun hi hhi => ?_
    refine fits_stmt rfl (by omega) (by omega) hhi ?_
    exact List.forall_mem_map.mpr fits_bindings

theorem ranges_readFunctionStmt (h : nt.Ranging input) (lo : Nat) (hlo : lo ≤ floor) :
    Ranges input continues floor (readFunctionStmt nt) (FitsAs .stmt lo) := by
  refine .take (fun _ => id) fun word inner _ hword => ?_
  obtain ⟨hlower, hsolid, hupper⟩ := hword
  refine .read (ranges_readName _) fun name next hnext _ => ?_
  refine .read (ranges_readParameters h word.span.start fun _ _ hlower => by omega) ?_
  refine fun parameters middle hmiddle hparameters => ?_
  refine .read (ranges_readBlock h word.span.start (by omega)) fun body last hlast hbody => ?_
  refine .span fun stop hstop => .pure fun hi hhi => ?_
  refine fits_stmt rfl (by omega) (by omega) hhi (List.forall_mem_append.mpr ⟨?_, ?_⟩)
  · exact List.forall_mem_map.mpr (hparameters stop (by omega)).2
  · exact List.forall_mem_singleton.mpr (hbody stop (by omega))

theorem ranges_readDefaultExport (h : nt.Ranging input) (lo : Nat) (hlo : lo ≤ floor) :
    Ranges input now floor (readDefaultExport nt) (FitsAs .stmt lo) := by
  unfold readDefaultExport
  refine .skip fun next => .see fun token _ => .ite (fun hfunction => ?_) fun _ => ?_
  · have hkind : token.kind = .functionWord := beq_iff_eq.mp (Bool.and_eq_true_iff.mp hfunction).1
    refine (ranges_readFunctionStmt h lo hlo).given_now ?_
    exact fun _ hsame => hsame ▸ continues_of_kind hkind nofun
  · refine .read (h.expr lo .comma hlo).anywhere fun value middle hmiddle hvalue => ?_
    refine .read .expectSemicolon fun _ last hlast _ => .pure fun hi hhi => ?_
    exact fits_expressionStmt (hvalue hi (by omega))

theorem ranges_readExportItem :
    Ranges input now floor readExportItem fun hi items => ∀ item ∈ items, whatever hi item := by
  unfold readExportItem
  refine .skip fun more => .ite (fun _ => .read .pass fun _ _ _ _ => ?_) fun _ => ?_
  · exact .pure fun _ _ _ _ => trivial
  · exact .see fun token _ => .fail_now fun _ hsame => hsame ▸ rfl

theorem ranges_readExportList (lo : Nat) (hlo : lo ≤ floor) :
    Ranges input continues floor readExportList (FitsAs .stmt lo) := by
  unfold readExportList
  refine .take (fun _ => id) fun opening inner _ hopening => ?_
  obtain ⟨hlower, hsolid, hupper⟩ := hopening
  extract_lets finish source
  have hfinish (result : PUnit) {floor : Nat} (hfloor : inner ≤ floor) :
      Ranges input anything floor (finish result) (FitsAs .stmt lo) := by
    refine .read .expectSemicolon fun _ last hlast _ => .span fun stop hstop => .pure fun hi hhi => ?_
    exact fits_stmt rfl (by omega) (by omega) hhi (List.forall_mem_nil _)
  have hsource (result : PUnit) {floor : Nat} (hfloor : inner ≤ floor) :
      Ranges input anything floor (source result) (FitsAs .stmt lo) := by
    refine .skip fun present => .ite (fun _ => ?_) fun _ => hfinish () hfloor
    refine .read .pass fun _ next hnext _ => .read (.expect nofun) fun _ last hlast _ => ?_
    exact hfinish () (by omega)
  refine .ite (fun _ => ?_) fun _ => .skip fun renamed => .ite (fun _ => ?_) fun _ => ?_
  · refine .read (.collectUntil fun _ _ => ranges_readExportItem) fun _ next hnext _ => ?_
    exact .read (.expect nofun) fun _ last hlast _ => hsource () (by omega)
  · refine .read .pass fun _ next hnext _ => .read (.expect nofun) fun _ last hlast _ => ?_
    exact hsource () (by omega)
  · exact hsource () (Nat.le_refl _)

theorem ranges_readExports (h : nt.Ranging input) (lo : Nat) (hlo : lo ≤ floor) :
    Ranges input continues floor (readExports nt) (FitsAs .stmt lo) := by
  unfold readExports
  refine .take (fun _ => id) fun word inner _ hword => .skip fun isDefault => ?_
  obtain ⟨hlower, hsolid, hupper⟩ := hword
  extract_lets finish
  have hfinish (declaration : Stmt) (middle : Nat) (hmiddle : inner ≤ middle)
      (hdeclaration : ∀ hi, middle ≤ hi → FitsAs .stmt word.span.start hi declaration) :
      Ranges input anything middle (finish declaration) (FitsAs .stmt lo) := by
    refine .span fun stop hstop => .pure fun hi hhi => ?_
    refine fits_stmt rfl (by omega) (by omega) hhi ?_
    exact List.forall_mem_singleton.mpr (hdeclaration stop hstop)
  refine .see fun token _ => .ite (fun _ => .read .pass fun _ next hnext _ => ?_) fun _ => ?_
  · refine .read (ranges_readDefaultExport h word.span.start (by omega)) ?_
    exact fun declaration middle hmiddle => hfinish declaration middle (by omega)
  · refine .ite (fun hlisted => ?_) fun _ => ?_
    · have hcontinues : continues token := by
        intro hends
        rw [hends] at hlisted
        exact absurd hlisted (by decide)
      refine .read ((ranges_readExportList word.span.start (by omega)).given_now ?_) hfinish
      exact fun _ hsame => hsame ▸ hcontinues
    · exact .read (h.stmt word.span.start (by omega)).anywhere hfinish

theorem ranges_readCondition (h : nt.Ranging input) (lo : Nat) (hlo : lo ≤ floor) :
    Ranges input now floor (readCondition nt) (FitsAs .expr lo) := by
  refine .read (.expect nofun) fun _ inner hinner _ => ?_
  refine .read (h.expr lo .none (by omega)) fun condition middle hmiddle hcondition => ?_
  exact .read (.expect nofun) fun _ last hlast _ => .pure fun hi hhi => hcondition hi (by omega)

theorem ranges_readConditionalStmt (h : nt.Ranging input) (lo : Nat) (hlo : lo ≤ floor) :
    Ranges input continues floor (readConditionalStmt nt) (FitsAs .stmt lo) := by
  refine .take (fun _ => id) fun word inner _ hword => ?_
  obtain ⟨hlower, hsolid, hupper⟩ := hword
  refine .read (ranges_readCondition h word.span.start (by omega)) ?_
  refine fun condition next hnext hcondition => .read (h.stmt word.span.start (by omega)) ?_
  refine fun consequent middle hmiddle hconsequent => .read .skipIf fun present behind hbehind _ => ?_
  refine .read (.optional (h.stmt word.span.start (by omega))) ?_
  refine fun alternate? last hlast halternate => .span fun stop hstop => .pure fun hi hhi => ?_
  refine fits_stmt rfl (by omega) (by omega) hhi (List.forall_mem_append.mpr ⟨?_, ?_⟩)
  · refine List.forall_mem_cons.mpr ⟨hcondition stop (by omega), ?_⟩
    exact List.forall_mem_singleton.mpr (hconsequent stop (by omega))
  · exact List.forall_mem_map.mpr (halternate stop (by omega))

theorem ranges_readWhile (h : nt.Ranging input) (lo : Nat) (hlo : lo ≤ floor) :
    Ranges input continues floor (readWhile nt) (FitsAs .stmt lo) := by
  refine .take (fun _ => id) fun word inner _ hword => ?_
  obtain ⟨hlower, hsolid, hupper⟩ := hword
  refine .read (ranges_readCondition h word.span.start (by omega)) ?_
  refine fun condition next hnext hcondition => .read (h.stmt word.span.start (by omega)) ?_
  refine fun body last hlast hbody => .span fun stop hstop => .pure fun hi hhi => ?_
  refine fits_stmt rfl (by omega) (by omega) hhi ?_
  refine List.forall_mem_cons.mpr ⟨hcondition stop (by omega), ?_⟩
  exact List.forall_mem_singleton.mpr (hbody stop (by omega))

theorem ranges_readDoWhile (h : nt.Ranging input) (lo : Nat) (hlo : lo ≤ floor) :
    Ranges input continues floor (readDoWhile nt) (FitsAs .stmt lo) := by
  refine .take (fun _ => id) fun word inner _ hword => ?_
  obtain ⟨hlower, hsolid, hupper⟩ := hword
  refine .read (h.stmt word.span.start (by omega)) fun body next hnext hbody => ?_
  refine .read (.expect nofun) fun _ middle hmiddle _ => ?_
  refine .read (ranges_readCondition h word.span.start (by omega)) ?_
  refine fun condition behind hbehind hcondition => .read .skipIf fun _ last hlast _ => ?_
  refine .span fun stop hstop => .pure fun hi hhi => ?_
  refine fits_stmt rfl (by omega) (by omega) hhi ?_
  refine List.forall_mem_cons.mpr ⟨hbody stop (by omega), ?_⟩
  exact List.forall_mem_singleton.mpr (hcondition stop (by omega))

theorem ranges_readForEach (h : nt.Ranging input) (lo : Nat) {start : Nat} (hlo : lo ≤ start)
    (hstart : start < floor) :
    Ranges input now floor (readForEach nt start) (FitsAs .stmt lo) := by
  unfold readForEach
  refine .skip fun declared => ?_
  extract_lets rest
  have hrest (kind? : Option DeclarationKind) {floor : Nat} (hfloor : start < floor) :
      Ranges input anything floor (rest kind?) (FitsAs .stmt lo) := by
    refine .read (ranges_readTarget h start (by omega) _) fun target inner hinner htarget => ?_
    refine .read .pass fun word next hnext _ => .read (h.expr start .none (by omega)) ?_
    refine fun subject middle hmiddle hsubject => .read (.expect nofun) fun _ behind hbehind _ => ?_
    refine .read (h.stmt start (by omega)) fun body last hlast hbody => .skip fun id => ?_
    refine .span fun stop hstop => .pure fun hi hhi => ?_
    refine fits_stmt rfl hlo (by omega) hhi ?_
    refine List.forall_mem_cons.mpr ⟨htarget stop (by omega), ?_⟩
    refine List.forall_mem_cons.mpr ⟨hsubject stop (by omega), ?_⟩
    exact List.forall_mem_singleton.mpr (hbody stop (by omega))
  refine .ite (fun _ => .read .pass fun word inner hinner _ => ?_) fun _ => ?_
  · exact .given (hrest _ (by omega))
  · exact .given (hrest _ hstart).anywhere

theorem ranges_readLoopStart (h : nt.Ranging input) (lo : Nat) (hlo : lo ≤ floor) :
    Ranges input now floor (readLoopStart nt) fun hi init? =>
      EachFits .stmt lo hi init?.toList := by
  unfold readLoopStart
  refine .skip fun missing => .ite (fun _ => .pure fun _ _ => nofun) fun _ => .see fun token _ => ?_
  refine .ite (fun hdeclared => ?_) fun _ => ?_
  · have hvariables : Ranges input (· = token) floor (readVariables nt) (FitsAs .stmt lo) :=
      (ranges_readVariables h lo hlo).given_now fun _ hsame =>
        hsame ▸ continues_of_declaration hdeclared
    refine .read hvariables fun declaration middle _ hdeclaration => .pure fun hi hhi => ?_
    exact List.forall_mem_singleton.mpr (hdeclaration hi hhi)
  · refine .read (h.expr lo .none hlo).anywhere fun value middle _ hvalue => .pure fun hi hhi => ?_
    exact List.forall_mem_singleton.mpr (fits_expressionStmt (hvalue hi hhi))

theorem ranges_readForParts (h : nt.Ranging input) (lo : Nat) {start : Nat} (hlo : lo ≤ start)
    (hstart : start < floor) :
    Ranges input now floor (readForParts nt start) (FitsAs .stmt lo) := by
  refine .read (ranges_readLoopStart h start (by omega)) fun init? inner hinner hinit => ?_
  refine .read (.expect nofun) fun _ next hnext _ => .skip fun _ => ?_
  refine .read (.optional (h.expr start .none (by omega))) ?_
  refine fun condition? middle hmiddle hcondition => .read (.expect nofun) fun _ after hafter _ => ?_
  refine .skip fun _ => .read (.optional (h.expr start .none (by omega))) ?_
  refine fun update? later hlater hupdate => .read (.expect nofun) fun _ behind hbehind _ => ?_
  refine .read (h.stmt start (by omega)) fun body last hlast hbody => .skip fun id => ?_
  refine .span fun stop hstop => .pure fun hi hhi => ?_
  refine fits_stmt rfl hlo (by omega) hhi (List.forall_mem_append.mpr ⟨?_, ?_⟩)
  · refine List.forall_mem_append.mpr ⟨List.forall_mem_append.mpr ⟨?_, ?_⟩, ?_⟩
    · exact List.forall_mem_map.mpr (hinit stop (by omega))
    · exact List.forall_mem_map.mpr (hcondition stop (by omega))
    · exact List.forall_mem_map.mpr (hupdate stop (by omega))
  · exact List.forall_mem_singleton.mpr (hbody stop (by omega))

theorem ranges_readFor (h : nt.Ranging input) (lo : Nat) (hlo : lo ≤ floor) :
    Ranges input continues floor (readFor nt) (FitsAs .stmt lo) := by
  refine .take (fun _ => id) fun word inner _ hword => ?_
  obtain ⟨hlower, hsolid, hupper⟩ := hword
  refine .read (.expect nofun) fun _ next hnext _ => .skip fun each => ?_
  refine .ite (fun _ => ?_) fun _ => ?_
  · exact ranges_readForEach h lo (by omega) (by omega)
  · exact ranges_readForParts h lo (by omega) (by omega)

theorem ranges_readResult (h : nt.Ranging input) (lo : Nat) (hlo : lo ≤ floor) :
    Ranges input continues floor (readResult nt) (FitsAs .stmt lo) := by
  refine .take (fun _ => id) fun word inner _ hword => .skip fun token => ?_
  obtain ⟨hlower, hsolid, hupper⟩ := hword
  refine .read (.optional (h.expr word.span.start .none (by omega))) ?_
  refine fun value? middle hmiddle hvalue => .read .expectSemicolon fun _ last hlast _ => ?_
  refine .span fun stop hstop => .pure fun hi hhi => ?_
  refine fits_stmt rfl (by omega) (by omega) hhi ?_
  exact List.forall_mem_map.mpr (hvalue stop (by omega))

theorem ranges_readJump (lo : Nat) (hlo : lo ≤ floor) {jump : Span → Stmt}
    (hspan : ∀ span, (jump span).span = span) (hchildren : ∀ span, (jump span).children = []) :
    Ranges input continues floor (readJump jump) (FitsAs .stmt lo) := by
  unfold readJump
  refine .take (fun _ => id) fun word inner _ hword => .skip fun label => ?_
  extract_lets finish
  have hfinish (result : PUnit) {floor : Nat} (hfloor : inner ≤ floor) :
      Ranges input anything floor (finish result) (FitsAs .stmt lo) := by
    refine .read .expectSemicolon fun _ last hlast _ => .pure fun hi hhi => ?_
    refine .spanned (congrArg some (hspan _)) (hword.mono hlo (by omega)) ?_
    rw [Node.children, hchildren]
    exact List.forall_mem_nil _
  refine .ite (fun _ => ?_) fun _ => hfinish () (Nat.le_refl _)
  exact .read .pass fun _ next hnext _ => hfinish () hnext

theorem ranges_readEmpty (lo : Nat) (hlo : lo ≤ floor) :
    Ranges input continues floor readEmpty (FitsAs .stmt lo) := by
  refine .take (fun _ => id) fun semicolon inner _ hsemicolon => .pure fun hi hhi => ?_
  exact .spanned rfl (hsemicolon.mono hlo hhi) (List.forall_mem_nil _)

theorem ranges_readLabeled (h : nt.Ranging input) (lo : Nat) (hlo : lo ≤ floor) :
    Ranges input continues floor (readLabeled nt) (FitsAs .stmt lo) := by
  refine .take (fun _ => id) fun label inner _ hlabel => ?_
  obtain ⟨hlower, hsolid, hupper⟩ := hlabel
  refine .read (.expect nofun) fun _ next hnext _ => ?_
  refine .read (h.stmt label.span.start (by omega)) fun body last hlast hbody => ?_
  refine .span fun stop hstop => .pure fun hi hhi => ?_
  refine fits_stmt rfl (by omega) (by omega) hhi ?_
  exact List.forall_mem_singleton.mpr (hbody stop (by omega))

theorem ranges_readRaise (h : nt.Ranging input) (lo : Nat) (hlo : lo ≤ floor) :
    Ranges input continues floor (readRaise nt) (FitsAs .stmt lo) := by
  refine .take (fun _ => id) fun word inner _ hword => ?_
  obtain ⟨hlower, hsolid, hupper⟩ := hword
  refine .read (h.expr word.span.start .none (by omega)) fun value next hnext hvalue => ?_
  refine .read .expectSemicolon fun _ last hlast _ => .span fun stop hstop => .pure fun hi hhi => ?_
  refine fits_stmt rfl (by omega) (by omega) hhi ?_
  exact List.forall_mem_singleton.mpr (hvalue stop (by omega))

theorem ranges_readCatchParameter (h : nt.Ranging input) (lo : Nat) (hlo : lo ≤ floor) :
    Ranges input now floor (readCatchParameter nt) (FitsAs .target lo) := by
  refine .read (ranges_readTarget h lo hlo _) fun target inner hinner htarget => ?_
  exact .read (.expect nofun) fun _ last hlast _ => .pure fun hi hhi => htarget hi (by omega)

theorem ranges_readCatch (h : nt.Ranging input) (lo : Nat) (hlo : lo ≤ floor) :
    Ranges input now floor (readCatch nt) (FitsAs .handler lo) := by
  refine .read .pass fun word inner hinner _ => .read .skipIf fun named next hnext _ => ?_
  refine .read (.optional (ranges_readCatchParameter h lo (by omega))) ?_
  refine fun parameter? middle hmiddle hparameter => ?_
  refine .read (ranges_readBlock h lo (by omega)) fun body last hlast hbody => ?_
  refine .span fun stop hstop => .pure fun hi hhi => ?_
  refine .plain rfl (List.forall_mem_append.mpr ⟨?_, ?_⟩)
  · exact List.forall_mem_map.mpr (hparameter hi (by omega))
  · exact List.forall_mem_singleton.mpr (hbody hi (by omega))

theorem ranges_readGuarded (h : nt.Ranging input) (lo : Nat) (hlo : lo ≤ floor) :
    Ranges input continues floor (readGuarded nt) (FitsAs .stmt lo) := by
  refine .take (fun _ => id) fun word inner _ hword => ?_
  obtain ⟨hlower, hsolid, hupper⟩ := hword
  refine .read (ranges_readBlock h word.span.start (by omega)) fun block next hnext hblock => ?_
  refine .skip fun caught => .read (.optional (ranges_readCatch h word.span.start (by omega))) ?_
  refine fun handler? middle hmiddle hhandler => .read .skipIf fun finishes behind hbehind _ => ?_
  refine .read (.optional (ranges_readBlock h word.span.start (by omega))) ?_
  refine fun finalizer? last hlast hfinalizer => .ite (fun _ => .failHere) fun _ => ?_
  refine .span fun stop hstop => .pure fun hi hhi => ?_
  refine fits_stmt rfl (by omega) (by omega) hhi ?_
  refine List.forall_mem_cons.mpr ⟨hblock stop (by omega), List.forall_mem_append.mpr ⟨?_, ?_⟩⟩
  · exact List.forall_mem_map.mpr (hhandler stop (by omega))
  · exact List.forall_mem_map.mpr (hfinalizer stop (by omega))

theorem ranges_readClauseTest (h : nt.Ranging input) (lo : Nat) (hlo : lo ≤ floor) :
    Ranges input now floor (readClauseTest nt) fun hi test? =>
      EachFits .expr lo hi test?.toList := by
  unfold readClauseTest
  refine .read .skipIf fun tested inner hinner _ => .ite (fun _ => ?_) fun _ => ?_
  · refine .read (h.expr lo .none (by omega)) fun test last _ htest => .pure fun hi hhi => ?_
    exact List.forall_mem_singleton.mpr (htest hi hhi)
  · exact .read .expectWord fun _ _ _ _ => .pure fun _ _ => nofun

theorem ranges_readClause (h : nt.Ranging input) (lo : Nat) (hlo : lo ≤ floor) :
    Ranges input now floor (readClause nt) (EachFits .clause lo) := by
  refine .skip fun start => ?_
  refine .read (ranges_readClauseTest h lo (by omega)) fun test? inner hinner htest => ?_
  refine .read (.expect nofun) fun _ next hnext _ => ?_
  refine .read (.collectUntil fun later hlater => ranges_body h lo (by omega)) ?_
  refine fun body last hlast hbody => .span fun stop hstop => .pure fun hi hhi => ?_
  refine List.forall_mem_singleton.mpr (.plain rfl (List.forall_mem_append.mpr ⟨?_, ?_⟩))
  · exact List.forall_mem_map.mpr (htest hi (by omega))
  · exact List.forall_mem_map.mpr (hbody hi (by omega))

theorem ranges_readSwitch (h : nt.Ranging input) (lo : Nat) (hlo : lo ≤ floor) :
    Ranges input continues floor (readSwitch nt) (FitsAs .stmt lo) := by
  refine .take (fun _ => id) fun word inner _ hword => ?_
  obtain ⟨hlower, hsolid, hupper⟩ := hword
  refine .read (ranges_readCondition h word.span.start (by omega)) ?_
  refine fun subject next hnext hsubject => .read (.expect nofun) fun _ middle hmiddle _ => ?_
  refine .read (.collectUntil fun later hlater => ranges_readClause h word.span.start (by omega)) ?_
  refine fun clauses behind hbehind hclauses => .read (.expect nofun) fun _ last hlast _ => ?_
  refine .span fun stop hstop => .pure fun hi hhi => ?_
  refine fits_stmt rfl (by omega) (by omega) hhi ?_
  refine List.forall_mem_cons.mpr ⟨hsubject stop (by omega), ?_⟩
  exact List.forall_mem_map.mpr (hclauses stop (by omega))

theorem ranges_readClassStmt (h : nt.Ranging input) (lo : Nat) (hlo : lo ≤ floor) :
    Ranges input continues floor (readClassStmt nt) (FitsAs .stmt lo) := by
  refine .take (fun _ => id) fun word inner _ hword => ?_
  obtain ⟨hlower, hsolid, hupper⟩ := hword
  refine .read (ranges_readName _) fun name next hnext _ => ?_
  refine .read (ranges_readClassTail h word.span.start (by omega)) fun tail last hlast htail => ?_
  refine .span fun stop hstop => .pure fun hi hhi => ?_
  obtain ⟨hsuper, hmembers⟩ := htail stop (by omega)
  refine fits_stmt rfl (by omega) (by omega) hhi (List.forall_mem_append.mpr ⟨?_, ?_⟩)
  · exact List.forall_mem_map.mpr hsuper
  · exact List.forall_mem_map.mpr hmembers

theorem ranges_readForm (h : nt.Ranging input) (lo : Nat) (hlo : lo ≤ floor) (form : StatementForm) :
    Ranges input continues floor (readForm nt form) (FitsAs .stmt lo) := by
  cases form with
  | varDeclaration => exact ranges_readVariablesStmt h lo hlo
  | imports => exact ranges_readImports lo hlo
  | exports => exact ranges_readExports h lo hlo
  | conditional => exact ranges_readConditionalStmt h lo hlo
  | block =>
      refine .read (ranges_readBlock h lo hlo) fun block middle _ hblock => .pure fun hi hhi => ?_
      exact fits_blockStmt (hblock hi hhi)
  | function => exact ranges_readFunctionStmt h lo hlo
  | result => exact ranges_readResult h lo hlo
  | whileLoop => exact ranges_readWhile h lo hlo
  | doWhile => exact ranges_readDoWhile h lo hlo
  | forLoop => exact ranges_readFor h lo hlo
  | leave => exact ranges_readJump lo hlo (fun _ => rfl) fun _ => rfl
  | skip => exact ranges_readJump lo hlo (fun _ => rfl) fun _ => rfl
  | empty => exact ranges_readEmpty lo hlo
  | guarded => exact ranges_readGuarded h lo hlo
  | raise => exact ranges_readRaise h lo hlo
  | switch => exact ranges_readSwitch h lo hlo
  | classDef => exact ranges_readClassStmt h lo hlo

theorem ranges_readExpressionStmt (h : nt.Ranging input) (lo : Nat) (hlo : lo ≤ floor) :
    Ranges input now floor (readExpressionStmt nt) (FitsAs .stmt lo) := by
  refine .read (h.expr lo .none hlo).anywhere fun value middle hmiddle hvalue => ?_
  refine .read .expectSemicolon fun _ last hlast _ => .pure fun hi hhi => ?_
  exact fits_expressionStmt (hvalue hi (by omega))

theorem ranges_readStmt (h : nt.Ranging input) (lo : Nat) (hlo : lo ≤ floor) :
    Ranges input now floor (readStmt nt) (FitsAs .stmt lo) := by
  refine .of_input fun hinput => .see_input fun token _ => .peek_input fun next => .at_input ?_
  split
  · rename_i form hform
    have hcontinues : continues token := by
      intro hkind
      rw [hkind, hinput.statement] at hform
      cases hform
    refine .to_input ((ranges_readForm h lo hlo form).given_now ?_)
    exact fun _ hsame => hsame ▸ hcontinues
  · split
    · rename_i hlabel
      have hkind : token.kind = .identifier := beq_iff_eq.mp (Bool.and_eq_true_iff.mp hlabel).1
      refine .to_input ((ranges_readLabeled h lo hlo).given_now ?_)
      exact fun _ hsame => hsame ▸ continues_of_kind hkind nofun
    · exact .to_input (ranges_readExpressionStmt h lo hlo)

theorem nonterminals_ranging (depth : Nat) : (nonterminals depth).Ranging input := by
  induction depth with
  | zero => exact ⟨fun _ _ _ _ => .exhausted, fun _ _ _ => .exhausted, fun _ _ _ => .exhausted⟩
  | succ depth ih =>
      exact ⟨fun lo _ power hlo => ranges_readExpr ih lo power hlo,
        fun lo _ hlo => ranges_readStmt ih lo hlo, fun lo _ hlo => ranges_readPattern ih lo hlo⟩

end Statements

end Grammar

end ScriptKinds
