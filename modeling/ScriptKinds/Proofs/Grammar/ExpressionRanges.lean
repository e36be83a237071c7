import ScriptKinds.Proofs.Grammar.ExpressionProgress
import ScriptKinds.Proofs.Grammar.Ranging

namespace ScriptKinds.Grammar

open Reader

variable {α : Type} {lo hi : Nat}

/-- A result that fits, as a node of some sort, between two byte offsets. -/
abbrev FitsAs (form : α → Node) (lo hi : Nat) (result : α) : Prop :=
  (form result).Fits lo hi

/-- All of some results fit between two offsets. -/
abbrev EachFits (form : α → Node) (lo hi : Nat) (results : List α) : Prop :=
  ∀ result ∈ results, (form result).Fits lo hi

/-- The names and the defaults in a pattern fit. -/
def PatternParts.Fits (lo hi : Nat) (parts : PatternParts) : Prop :=
  EachFits .element lo hi parts.elements ∧ EachFits .expr lo hi parts.nestedDefaults

/-- What the readers of expressions, statements and patterns yield lies behind
what has been read before. -/
structure Nonterminals.Ranging (input : Input) (nt : Nonterminals) : Prop where
  expr : ∀ (lo : Nat) {floor : Nat} (power : Power), lo ≤ floor →
    Ranges input anything floor (nt.expr power) (FitsAs .expr lo)
  stmt : ∀ (lo : Nat) {floor : Nat}, lo ≤ floor →
    Ranges input anything floor nt.stmt (FitsAs .stmt lo)
  pattern : ∀ (lo : Nat) {floor : Nat}, lo ≤ floor →
    Ranges input continues floor nt.pattern (PatternParts.Fits lo)

variable {input : Input} {now : Token → Prop} {floor : Nat} {nt : Nonterminals}

section Bindings

theorem PatternParts.fits_join {parts : List PatternParts}
    (h : ∀ part ∈ parts, part.Fits lo hi) : (PatternParts.join parts).Fits lo hi := by
  constructor
  · intro element helement
    obtain ⟨part, hpart, hinside⟩ := List.mem_flatMap.mp helement
    exact (h part hpart).1 element hinside
  · intro value hvalue
    obtain ⟨part, hpart, hinside⟩ := List.mem_flatMap.mp hvalue
    exact (h part hpart).2 value hinside

theorem PatternParts.fits_single {name : Identifier} {default? : Option Expr} {span : Span}
    (h : EachFits .expr lo hi default?.toList) :
    PatternParts.Fits lo hi ⟨[⟨name, default?, span⟩], []⟩ := by
  refine ⟨List.forall_mem_singleton.mpr (.plain rfl ?_), nofun⟩
  exact List.forall_mem_map.mpr h

theorem ranges_readDefault (h : nt.Ranging input) (lo : Nat) (hlo : lo ≤ floor) :
    Ranges input now floor (readDefault nt) fun hi default? =>
      EachFits .expr lo hi default?.toList := by
  refine .read .skipIf fun _ middle hmiddle _ => ?_
  exact .optional (h.expr lo .comma (by omega))

theorem ranges_readName (expectation : String) :
    Ranges input now floor (readName (failHere expectation)) whatever :=
  .read (.expectOr nofun) fun _ _ _ _ => .skip fun _ => .pure fun _ _ => trivial

theorem ranges_pattern (h : nt.Ranging input) (lo : Nat) (hlo : lo ≤ floor)
    (hnow : ∀ token, now token →
      [TokenKind.openCurly, TokenKind.openBracket].contains token.kind = true) :
    Ranges input now floor nt.pattern (PatternParts.Fits lo) :=
  (h.pattern lo hlo).given_now fun token htoken => continues_of_opening (hnow token htoken)

theorem ranges_readPatternElement (h : nt.Ranging input) (lo : Nat) (hlo : lo ≤ floor) :
    Ranges input now floor (readPatternElement nt) (PatternParts.Fits lo) := by
  unfold readPatternElement
  refine .see fun token _ => .ite (fun hnested => ?_) fun _ => ?_
  · refine .read (ranges_pattern h lo hlo fun _ hsame => hsame ▸ hnested) ?_
    intro inner middle hmiddle hinner
    refine .read (ranges_readDefault h lo (by omega)) fun default? last hlast hdefault => ?_
    refine .pure fun hi hhi => ⟨(hinner hi (by omega)).1, ?_⟩
    exact List.forall_mem_append.mpr ⟨(hinner hi (by omega)).2, hdefault hi hhi⟩
  · refine .read (ranges_readName _) fun name middle hmiddle _ => ?_
    refine .read (ranges_readDefault h lo (by omega)) fun default? last hlast hdefault => ?_
    exact .pure fun hi hhi => PatternParts.fits_single (hdefault hi hhi)

theorem ranges_readArrayPatternItem (h : nt.Ranging input) (lo : Nat) (hlo : lo ≤ floor) :
    Ranges input now floor (readArrayPatternItem nt) fun hi parts =>
      ∀ part ∈ parts, part.Fits lo hi := by
  unfold readArrayPatternItem
  refine .read .skipIf fun hole middle hmiddle _ => .ite (fun _ => .pure fun _ _ => nofun) fun _ => ?_
  refine .read .skipIf fun _ next hnext _ => ?_
  refine .read (ranges_readPatternElement h lo (by omega)) fun parts stop hstop hparts => ?_
  refine .read .separator fun _ last hlast _ => .pure fun hi hhi => ?_
  exact List.forall_mem_singleton.mpr (hparts hi (by omega))

theorem ranges_readPatternProperty (h : nt.Ranging input) (lo : Nat) (hlo : lo ≤ floor) :
    Ranges input now floor (readPatternProperty nt) (PatternParts.Fits lo) := by
  unfold readPatternProperty
  refine .see fun key _ => .ite (fun hname => ?_) fun _ => .fail_now fun _ hsame => hsame ▸ rfl
  refine .read (.advance_name fun _ hsame => hsame ▸ hname) fun _ behind hbehind _ => ?_
  refine .read .skipIf fun renamed middle hmiddle _ => .ite (fun _ => ?_) fun _ => ?_
  · exact ranges_readPatternElement h lo (by omega)
  · refine .ite (fun _ => .skip fun id => ?_) fun _ => .failHere
    refine .read (ranges_readDefault h lo (by omega)) fun default? last hlast hdefault => ?_
    exact .pure fun hi hhi => PatternParts.fits_single (hdefault hi hhi)

theorem ranges_readObjectPatternItem (h : nt.Ranging input) (lo : Nat) (hlo : lo ≤ floor) :
    Ranges input now floor (readObjectPatternItem nt) fun hi parts =>
      ∀ part ∈ parts, part.Fits lo hi := by
  unfold readObjectPatternItem
  refine .read .skipIf fun rest middle hmiddle _ => .ite (fun _ => ?_) fun _ => ?_
  · refine .read (ranges_readPatternElement h lo (by omega)) fun parts stop hstop hparts => ?_
    refine .read .separator fun _ last hlast _ => .pure fun hi hhi => ?_
    exact List.forall_mem_singleton.mpr (hparts hi (by omega))
  · refine .read (ranges_readPatternProperty h lo (by omega)) fun parts stop hstop hparts => ?_
    refine .read .separator fun _ last hlast _ => .pure fun hi hhi => ?_
    exact List.forall_mem_singleton.mpr (hparts hi (by omega))

theorem ranges_readPattern (h : nt.Ranging input) (lo : Nat) (hlo : lo ≤ floor) :
    Ranges input continues floor (readPattern nt) (PatternParts.Fits lo) := by
  unfold readPattern
  refine .read (.advance fun _ => id) fun opening inner hinner _ => .ite (fun _ => ?_) fun _ => ?_
  · refine .read (.collectUntil fun later hlater => ranges_readObjectPatternItem h lo
      (by omega)) fun parts middle hmiddle hparts => ?_
    refine .read (.expect nofun) fun _ last hlast _ => .pure fun hi hhi => ?_
    exact PatternParts.fits_join (hparts hi (by omega))
  · refine .read (.collectUntil fun later hlater => ranges_readArrayPatternItem h lo
      (by omega)) fun parts middle hmiddle hparts => ?_
    refine .read (.expect nofun) fun _ last hlast _ => .pure fun hi hhi => ?_
    exact PatternParts.fits_join (hparts hi (by omega))

theorem ranges_readTarget (h : nt.Ranging input) (lo : Nat) (hlo : lo ≤ floor) (expectation : String) :
    Ranges input now floor (readTarget nt expectation) (FitsAs .target lo) := by
  unfold readTarget
  refine .see fun token _ => .ite (fun hnested => ?_) fun _ => ?_
  · refine .read (ranges_pattern h lo hlo fun _ hsame => hsame ▸ hnested) ?_
    intro parts middle hmiddle hparts
    refine .pure fun hi hhi => .plain rfl (List.forall_mem_append.mpr ⟨?_, ?_⟩)
    · exact List.forall_mem_map.mpr (hparts hi hhi).1
    · exact List.forall_mem_map.mpr (hparts hi hhi).2
  · refine .read (ranges_readName _) fun name middle hmiddle _ => ?_
    exact .pure fun _ _ => .plain rfl nofun

theorem fits_bound {node : Node} {target : Target} {value? : Option Expr}
    (hspan : node.span? = none) (hchildren : node.children =
      .target target :: value?.toList.map .expr)
    (htarget : FitsAs .target lo hi target) (hvalue : EachFits .expr lo hi value?.toList) :
    node.Fits lo hi := by
  refine .plain hspan ?_
  rw [hchildren]
  exact List.forall_mem_cons.mpr ⟨htarget, List.forall_mem_map.mpr hvalue⟩

theorem ranges_readParameter (h : nt.Ranging input) (lo : Nat) (hlo : lo ≤ floor) :
    Ranges input now floor (readParameter nt) (EachFits .parameter lo) := by
  refine .skip fun start => .read .skipIf fun rest middle hmiddle _ => ?_
  refine .read (ranges_readTarget h lo (by omega) _) fun target next hnext htarget => ?_
  refine .read (ranges_readDefault h lo (by omega)) fun default? stop hstop hdefault => ?_
  refine .span fun last hlast => .read .separator fun _ behind hbehind _ => .pure fun hi hhi => ?_
  refine List.forall_mem_singleton.mpr ?_
  exact fits_bound rfl rfl (htarget hi (by omega)) (hdefault hi (by omega))

theorem ranges_readParameters (h : nt.Ranging input) (start : Nat)
    (hstart : ∀ token, now token → floor ≤ token.span.start → start ≤ token.span.start) :
    Ranges input now floor (readParameters nt) fun hi parameters =>
      (∃ opening, now opening ∧ opening.span.Fits floor hi) ∧
        EachFits .parameter start hi parameters := by
  refine .read (.expect nofun) fun opening inner hinner hopening => ?_
  obtain ⟨hnow, hlower, hsolid, hupper⟩ := hopening inner (Nat.le_refl _)
  have hbefore := hstart opening hnow hlower
  refine .read (.collectUntil fun later hlater => ranges_readParameter h start (by omega))
    fun parameters middle hmiddle hparameters => ?_
  refine .read (.expect nofun) fun _ last hlast _ => .pure fun hi hhi => ?_
  exact ⟨⟨opening, hopening hi (by omega)⟩, hparameters hi (by omega)⟩

end Bindings

section Bodies

variable {start stop : Nat}

theorem fits_expr {expr : Expr} (hspan : expr.span = ⟨start, stop⟩) (hlo : lo ≤ start)
    (hsolid : start < stop) (hhi : stop ≤ hi)
    (hchildren : ∀ child ∈ expr.children, child.Fits start stop) : FitsAs .expr lo hi expr :=
  .spanned (congrArg some hspan) ⟨hlo, hsolid, hhi⟩ hchildren

theorem fits_block {id : NodeId} {body : List Stmt} (hlo : lo ≤ start) (hsolid : start < stop)
    (hhi : stop ≤ hi) (hbody : EachFits .stmt start stop body) :
    FitsAs .block lo hi ⟨id, body, ⟨start, stop⟩⟩ :=
  .spanned rfl ⟨hlo, hsolid, hhi⟩ (List.forall_mem_map.mpr hbody)

theorem ranges_body (h : nt.Ranging input) (lo : Nat) (hlo : lo ≤ floor) :
    Ranges input now floor (return [← nt.stmt]) (EachFits .stmt lo) := by
  refine .read (h.stmt lo hlo).anywhere fun stmt middle _ hstmt => .pure fun hi hhi => ?_
  exact List.forall_mem_singleton.mpr (hstmt hi hhi)

theorem ranges_readBlock (h : nt.Ranging input) (lo : Nat) (hlo : lo ≤ floor) :
    Ranges input now floor (readBlock nt) (FitsAs .block lo) := by
  refine .read (.expect nofun) fun opening inner hinner hopening => ?_
  obtain ⟨-, hlower, hsolid, hupper⟩ := hopening inner (Nat.le_refl _)
  refine .read (.collectUntil fun later hlater => ranges_body h opening.span.start (by omega))
    fun body middle hmiddle hbody => ?_
  refine .read (.expect nofun) fun _ last hlast _ => .skip fun id => ?_
  refine .span fun stop hstop => .pure fun hi hhi => ?_
  exact fits_block (by omega) (by omega) hhi (hbody stop (by omega))

theorem ranges_readArrowBody (h : nt.Ranging input) (lo : Nat) (hlo : lo ≤ floor) :
    Ranges input now floor (readArrowBody nt) (FitsAs .block lo) := by
  unfold readArrowBody
  refine .skip fun block => .ite (fun _ => ranges_readBlock h lo hlo) fun _ => ?_
  refine .read (h.expr lo .comma hlo).anywhere fun value middle _ hvalue => .skip fun id => ?_
  refine .pure fun hi hhi => ?_
  have hspan : value.span.Fits lo hi := (hvalue hi hhi).span_fits rfl
  have htight : (Node.expr value).Fits value.span.start value.span.stop := (hvalue hi hhi).tight rfl
  have hself : value.span.Fits value.span.start value.span.stop := htight.span_fits rfl
  refine .spanned rfl hspan (List.forall_mem_singleton.mpr ?_)
  exact .spanned rfl hself (List.forall_mem_singleton.mpr htight)

theorem fits_function {name? : Option Identifier} {parameters : List Parameter} {body : Block}
    {arrow : Bool} (hlo : lo ≤ start) (hsolid : start < stop) (hhi : stop ≤ hi)
    (hparameters : EachFits .parameter start stop parameters)
    (hbody : FitsAs .block start stop body) :
    FitsAs .expr lo hi (.function name? parameters body arrow ⟨start, stop⟩) := by
  refine fits_expr rfl hlo hsolid hhi (List.forall_mem_append.mpr ⟨?_, ?_⟩)
  · exact List.forall_mem_map.mpr hparameters
  · exact List.forall_mem_singleton.mpr hbody

theorem ranges_readFunction (h : nt.Ranging input) (lo : Nat) {start : Nat} (hlo : lo ≤ start)
    (hstart : start ≤ floor) (name? : Option Identifier) :
    Ranges input now floor (readFunction nt start name?) (FitsAs .expr lo) := by
  refine .read (ranges_readParameters h start fun _ _ hlower => by omega) ?_
  intro parameters inner hinner hparameters
  obtain ⟨⟨opening, -, hlower, hsolid, hupper⟩, -⟩ := hparameters inner (Nat.le_refl _)
  refine .read (ranges_readBlock h start (by omega)) fun body middle hmiddle hbody => ?_
  refine .span fun stop hstop => .pure fun hi hhi => ?_
  exact fits_function hlo (by omega) hhi (hparameters stop (by omega)).2 (hbody stop (by omega))

theorem ranges_readOptionalName : Ranges input now floor readOptionalName whatever := by
  unfold readOptionalName
  refine .skip fun present => .ite (fun _ => ?_) fun _ => .pure fun _ _ => trivial
  exact .read .pass fun _ _ _ _ => .skip fun _ => .pure fun _ _ => trivial

theorem ranges_skipModifier (words : List String) :
    Ranges input now floor (skipModifier words) whatever := by
  unfold skipModifier
  refine .skip fun token => .skip fun next => .ite (fun _ => ?_) fun _ => .pure fun _ _ => trivial
  exact .read .pass fun _ _ _ _ => .pure fun _ _ => trivial

theorem ranges_readMemberValue (h : nt.Ranging input) (lo : Nat) {key : Token}
    (hlo : lo ≤ key.span.start) (hkey : key.span.start ≤ floor) :
    Ranges input now floor (readMemberValue nt key) fun hi value? =>
      EachFits .expr lo hi value?.toList := by
  unfold readMemberValue
  refine .skip fun method => .ite (fun _ => ?_) fun _ => ?_
  · refine .read (ranges_readFunction h lo hlo hkey none) fun value middle hmiddle hvalue => ?_
    exact .pure fun hi hhi => List.forall_mem_singleton.mpr (hvalue hi hhi)
  · refine .read (ranges_readDefault h lo (by omega)) fun value? middle hmiddle hvalue => ?_
    exact .read .expectSemicolon fun _ last hlast _ => .pure fun hi hhi => hvalue hi (by omega)

theorem ranges_readMember (h : nt.Ranging input) (lo : Nat) (hlo : lo ≤ floor) :
    Ranges input now floor (readMember nt) (EachFits .member lo) := by
  unfold readMember
  refine .read .skipIf fun empty inner hinner _ => .ite (fun _ => .pure fun _ _ => nofun) fun _ => ?_
  refine .skip fun start => .read (ranges_skipModifier _) fun isStatic middle hmiddle _ => ?_
  refine .read (ranges_skipModifier _) fun _ next hnext _ => .see fun key _ => ?_
  refine .ite (fun hname => ?_) fun _ => .fail_now fun _ hsame => hsame ▸ rfl
  refine .take_name (fun _ hsame => hsame ▸ hname) ?_
  rintro _ behind rfl ⟨hlower, hsolid, hupper⟩
  refine .read (ranges_readMemberValue h lo (by omega) (by omega)) ?_
  refine fun value? last hlast hvalue => .span fun stop hstop => .pure fun hi hhi => ?_
  refine List.forall_mem_singleton.mpr (.plain rfl ?_)
  exact List.forall_mem_map.mpr (hvalue hi (by omega))

theorem ranges_readClassTail (h : nt.Ranging input) (lo : Nat) (hlo : lo ≤ floor) :
    Ranges input now floor (readClassTail nt) fun hi tail =>
      EachFits .expr lo hi tail.1.toList ∧ EachFits .member lo hi tail.2 := by
  refine .read .skipIf fun extended inner hinner _ => ?_
  refine .read (.optional (h.expr lo .unary (by omega))) fun superclass? middle hmiddle hsuper => ?_
  refine .read (.expect nofun) fun _ next hnext _ => ?_
  refine .read (.collectUntil fun later hlater => ranges_readMember h lo (by omega))
    fun members behind hbehind hmembers => ?_
  refine .read (.expect nofun) fun _ last hlast _ => .pure fun hi hhi => ?_
  exact ⟨hsuper hi (by omega), hmembers hi (by omega)⟩

end Bodies

section Expressions

theorem fits_leaf {expr : Expr} {span : Span} (hspan : expr.span = span)
    (hchildren : expr.children = []) (hfits : span.Fits lo hi) : FitsAs .expr lo hi expr := by
  refine .spanned (congrArg some hspan) hfits ?_
  rw [Node.children, hchildren]
  exact List.forall_mem_nil _

theorem ranges_readPrimary (lo : Nat) (hlo : lo ≤ floor) :
    Ranges input continues floor readPrimary (FitsAs .expr lo) := by
  refine .take (fun _ => id) fun token middle _ htoken => ?_
  have hfits (hi : Nat) (hhi : middle ≤ hi) : token.span.Fits lo hi := htoken.mono hlo hhi
  have hstart : token.span.start ≤ middle := by
    have hsolid := htoken.solid
    have hupper := htoken.upper
    omega
  split
  · split
    · exact .pure fun hi hhi => fits_leaf rfl rfl (hfits hi hhi)
    · exact .fail hstart
  · exact .skip fun id => .pure fun hi hhi => fits_leaf rfl rfl (hfits hi hhi)
  all_goals
    first
    | exact .pure fun hi hhi => fits_leaf rfl rfl (hfits hi hhi)
    | exact .fail hstart

theorem ranges_checkAssignable {target : Expr} {next : PUnit → Reader α} {good : Nat → α → Prop}
    (htarget : FitsAs .expr lo floor target) (h : Ranges input now floor (next ()) good) :
    Ranges input now floor (checkAssignable target >>= next) good := by
  have hspan : target.span.Fits lo floor := htarget.span_fits rfl
  have hstart : target.span.start ≤ floor := Nat.le_trans (Nat.le_of_lt hspan.solid) hspan.upper
  unfold checkAssignable
  split
  · exact .given h
  · exact .fail_bind hstart

theorem ranges_argument (h : nt.Ranging input) (lo : Nat) (hlo : lo ≤ floor) :
    Ranges input now floor (do
      let argument ← nt.expr .comma
      separator .closeParen
      return [argument]) (EachFits .expr lo) := by
  refine .read (h.expr lo .comma hlo).anywhere fun argument middle hmiddle hargument => ?_
  refine .read .separator fun _ last hlast _ => .pure fun hi hhi => ?_
  exact List.forall_mem_singleton.mpr (hargument hi (by omega))

theorem ranges_readArguments (h : nt.Ranging input) (lo : Nat) (hlo : lo ≤ floor) :
    Ranges input now floor (readArguments nt) (EachFits .expr lo) := by
  refine .read (.expect nofun) fun _ inner hinner _ => ?_
  refine .read (.collectUntil fun later hlater => ranges_argument h lo (by omega)) ?_
  intro arguments middle hmiddle harguments
  refine .read (.expect nofun) fun _ last hlast _ => .pure fun hi hhi => ?_
  exact harguments hi (by omega)

theorem ranges_readElement (h : nt.Ranging input) (lo : Nat) (hlo : lo ≤ floor) :
    Ranges input now floor (readElement nt) (EachFits .expr lo) := by
  unfold readElement
  refine .read .skipIf fun hole inner hinner _ => .ite (fun _ => .pure fun _ _ => nofun) fun _ => ?_
  refine .read (h.expr lo .comma (by omega)) fun element middle hmiddle helement => ?_
  refine .read .separator fun _ last hlast _ => .pure fun hi hhi => ?_
  exact List.forall_mem_singleton.mpr (helement hi (by omega))

theorem ranges_readArray (h : nt.Ranging input) (lo : Nat) (hlo : lo ≤ floor) :
    Ranges input continues floor (readArray nt) (FitsAs .expr lo) := by
  refine .take (fun _ => id) fun opening inner _ hopening => ?_
  obtain ⟨hlower, hsolid, hupper⟩ := hopening
  refine .read (.collectUntil fun later hlater => ranges_readElement h opening.span.start (by omega))
    fun elements middle hmiddle helements => ?_
  refine .read (.expect nofun) fun _ last hlast _ => .span fun stop hstop => .pure fun hi hhi => ?_
  refine fits_expr rfl (by omega) (by omega) hhi ?_
  exact List.forall_mem_map.mpr (helements stop (by omega))

theorem fits_first {first : Expr} (h : FitsAs .expr lo floor first) (hstop : floor ≤ stop) :
    FitsAs .expr first.span.start stop first :=
  (h.tight rfl).mono (Nat.le_refl _) (Nat.le_trans (h.span_fits rfl).upper hstop)

theorem fits_last {last : Expr} (h : FitsAs .expr floor hi last) (hstart : start ≤ floor) :
    FitsAs .expr start last.span.stop last :=
  (h.tight rfl).mono (Nat.le_trans hstart (h.span_fits rfl).lower) (Nat.le_refl _)

theorem fits_cover {expr last : Expr} {first : Span} (hspan : expr.span = cover first last.span)
    (hfirst : first.Fits lo floor) (hlast : FitsAs .expr floor hi last)
    (hchildren : floor ≤ last.span.stop →
      ∀ child ∈ expr.children, child.Fits first.start last.span.stop) :
    FitsAs .expr lo hi expr := by
  obtain ⟨hlower, hsolid, hupper⟩ := hfirst
  have hend : last.span.Fits floor hi := hlast.span_fits rfl
  obtain ⟨hafter, hmore, hstop⟩ := hend
  exact fits_expr hspan hlower (by omega) hstop (hchildren (by omega))

theorem fits_operand {expr operand : Expr} {operator : Span}
    (hspan : expr.span = cover operator operand.span) (hchildren : expr.children = [.expr operand])
    (hoperator : operator.Fits lo floor) (hoperand : FitsAs .expr floor hi operand) :
    FitsAs .expr lo hi expr := by
  refine fits_cover hspan hoperator hoperand fun _ => ?_
  rw [hchildren]
  have hstart : operator.start ≤ floor :=
    Nat.le_trans (Nat.le_of_lt hoperator.solid) hoperator.upper
  exact List.forall_mem_singleton.mpr (fits_last hoperand hstart)

theorem ranges_readSpread (h : nt.Ranging input) (lo : Nat) (hlo : lo ≤ floor) :
    Ranges input continues floor (readSpread nt) (FitsAs .expr lo) := by
  refine .take (fun _ => id) fun dots inner _ hdots => ?_
  refine .read (h.expr inner .comma (Nat.le_refl _)) fun argument middle hmiddle hargument => ?_
  refine .pure fun hi hhi => ?_
  exact fits_operand rfl rfl (hdots.mono hlo (Nat.le_refl _)) (hargument hi hhi)

theorem ranges_readPropertyValue (h : nt.Ranging input) (lo : Nat) {key : Token}
    (hkey : key.span.Fits lo floor) :
    Ranges input now floor (readPropertyValue nt key) (FitsAs .expr lo) := by
  have hlower := hkey.lower
  have hsolid := hkey.solid
  have hupper := hkey.upper
  unfold readPropertyValue
  refine .read .skipIf fun valued middle hmiddle _ => .ite (fun _ => ?_) fun _ => ?_
  · exact h.expr lo .comma (by omega)
  · refine .skip fun method => .ite (fun _ => ?_) fun _ => .ite (fun _ => ?_) fun _ => .failHere
    · exact ranges_readFunction h lo hlower (by omega) none
    · exact .skip fun id => .pure fun hi hhi => fits_leaf rfl rfl (hkey.mono (Nat.le_refl _) (by omega))

theorem ranges_readPropertyEntry (h : nt.Ranging input) (lo : Nat) (hlo : lo ≤ floor) :
    Ranges input now floor (readPropertyEntry nt) (FitsAs .property lo) := by
  unfold readPropertyEntry
  refine .see fun token _ => .ite (fun hrest => ?_) fun _ => ?_
  · have hcontinues : continues token := continues_of_kind (beq_iff_eq.mp hrest) nofun
    refine .read ((ranges_readSpread h lo hlo).given_now ?_) fun value middle hmiddle hvalue => ?_
    · exact fun _ hsame => hsame ▸ hcontinues
    · refine .pure fun hi hhi => .plain rfl ?_
      exact List.forall_mem_singleton.mpr (hvalue hi hhi)
  · refine .see fun key _ => .ite (fun hname => ?_) fun _ => .fail_now fun _ hsame => hsame ▸ rfl
    refine .take_name (fun _ hsame => hsame ▸ hname) ?_
    rintro _ behind rfl hkey
    refine .read (ranges_readPropertyValue h lo (hkey.mono hlo (Nat.le_refl _))) ?_
    refine fun value middle hmiddle hvalue => .pure fun hi hhi => .plain rfl ?_
    exact List.forall_mem_singleton.mpr (hvalue hi hhi)

theorem ranges_readProperty (h : nt.Ranging input) (lo : Nat) (hlo : lo ≤ floor) :
    Ranges input now floor (readProperty nt) (EachFits .property lo) := by
  refine .read (ranges_readPropertyEntry h lo hlo) fun property middle hmiddle hproperty => ?_
  refine .read .separator fun _ last hlast _ => .pure fun hi hhi => ?_
  exact List.forall_mem_singleton.mpr (hproperty hi (by omega))

theorem ranges_readObject (h : nt.Ranging input) (lo : Nat) (hlo : lo ≤ floor) :
    Ranges input continues floor (readObject nt) (FitsAs .expr lo) := by
  refine .take (fun _ => id) fun opening inner _ hopening => ?_
  obtain ⟨hlower, hsolid, hupper⟩ := hopening
  refine .read (.collectUntil fun later hlater => ranges_readProperty h opening.span.start
    (by omega)) fun properties middle hmiddle hproperties => ?_
  refine .read (.expect nofun) fun _ last hlast _ => .span fun stop hstop => .pure fun hi hhi => ?_
  refine fits_expr rfl (by omega) (by omega) hhi ?_
  exact List.forall_mem_map.mpr (hproperties stop (by omega))

theorem ranges_readSubstitution (h : nt.Ranging input) (lo : Nat) (hlo : lo ≤ floor)
    {read : List String × List Expr} (hread : EachFits .expr lo floor read.2) :
    Ranges input now floor (readSubstitution nt read)
      (Ranges.againGood (fun hi read => EachFits .expr lo hi read.2)
        fun hi read => EachFits .expr lo hi read.2) := by
  refine .read (h.expr lo .none hlo).anywhere fun substitution middle hmiddle hsubstitution => ?_
  have hmore (hi : Nat) (hhi : middle ≤ hi) :
      EachFits .expr lo hi (read.2 ++ [substitution]) := by
    refine List.forall_mem_append.mpr ⟨fun part hpart => ?_, ?_⟩
    · exact (hread part hpart).mono (Nat.le_refl _) (by omega)
    · exact List.forall_mem_singleton.mpr (hsubstitution hi hhi)
  refine .see fun part _ => .ite (fun _ => ?_) fun _ => .ite (fun _ => ?_) fun _ => ?_
  · exact .read .pass fun _ last hlast _ => .pure fun hi hhi => hmore hi (by omega)
  · exact .read .pass fun _ last hlast _ => .pure fun hi hhi => hmore hi (by omega)
  · exact .fail_now fun _ hsame => hsame ▸ rfl

theorem ranges_readTemplate (h : nt.Ranging input) (lo : Nat) (hlo : lo ≤ floor) :
    Ranges input continues floor (readTemplate nt) (FitsAs .expr lo) := by
  refine .take (fun _ => id) fun head inner _ hhead => ?_
  obtain ⟨hlower, hsolid, hupper⟩ := hhead
  have hturn (read : List String × List Expr) (later : Nat) (hlater : inner ≤ later)
      (hread : ∀ hi, later ≤ hi → EachFits .expr head.span.start hi read.2) :
      Ranges input anything later (readSubstitution nt read)
        (Ranges.againGood (fun hi read => EachFits .expr head.span.start hi read.2)
          fun hi read => EachFits .expr head.span.start hi read.2) :=
    ranges_readSubstitution h _ (by omega) (hread later (Nat.le_refl _))
  refine .read (.iterate hturn fun _ _ => List.forall_mem_nil _) ?_
  refine fun read middle hmiddle hread => .span fun stop hstop => .pure fun hi hhi => ?_
  refine fits_expr rfl (by omega) (by omega) hhi ?_
  exact List.forall_mem_map.mpr (hread stop hstop)

theorem ranges_readRegex (lo : Nat) (hlo : lo ≤ floor) :
    Ranges input continues floor readRegex (FitsAs .expr lo) := by
  refine .take (fun _ => id) fun token middle _ htoken => ?_
  split
  · exact .pure fun hi hhi => fits_leaf rfl rfl (htoken.mono hlo hhi)
  · exact .breakOff

theorem ranges_readGroup (h : nt.Ranging input) (lo : Nat) (hlo : lo ≤ floor) :
    Ranges input continues floor (readGroup nt) (FitsAs .expr lo) := by
  unfold readGroup
  refine .skip fun arrow => .ite (fun _ => .see fun token _ => ?_) fun _ => ?_
  · have hstart (other : Token) (hsame : other = token) (_ : floor ≤ other.span.start) :
        token.span.start ≤ other.span.start :=
      hsame ▸ Nat.le_refl _
    refine .read (ranges_readParameters h token.span.start hstart) ?_
    intro parameters inner hinner hparameters
    obtain ⟨⟨opening, hsame, hopening⟩, -⟩ := hparameters inner (Nat.le_refl _)
    rw [hsame] at hopening
    obtain ⟨hlower, hsolid, hupper⟩ := hopening
    refine .read (.expect nofun) fun _ next hnext _ => ?_
    refine .read (ranges_readArrowBody h token.span.start (by omega)) ?_
    refine fun body last hlast hbody => .span fun stop hstop => .pure fun hi hhi => ?_
    exact fits_function (by omega) (by omega) hhi (hparameters stop (by omega)).2
      (hbody stop (by omega))
  · refine .take (fun _ => id) fun opening inner _ hopening => ?_
    obtain ⟨hlower, hsolid, hupper⟩ := hopening
    refine .read (h.expr lo .none (by omega)) fun expr middle hmiddle hexpr => ?_
    refine .read (.expect nofun) fun _ last hlast _ => .pure fun hi hhi => ?_
    exact hexpr hi (by omega)

theorem ranges_readUnary (h : nt.Ranging input) (lo : Nat) (hlo : lo ≤ floor) :
    Ranges input continues floor (readUnary nt) (FitsAs .expr lo) := by
  refine .take (fun _ => id) fun operator inner _ hoperator => ?_
  refine .read (h.expr inner .unary (Nat.le_refl _)) fun operand middle hmiddle hoperand => ?_
  refine .pure fun hi hhi => ?_
  exact fits_operand rfl rfl (hoperator.mono hlo (Nat.le_refl _)) (hoperand hi hhi)

theorem ranges_readLeadingUpdate (h : nt.Ranging input) (lo : Nat) (hlo : lo ≤ floor) :
    Ranges input continues floor (readLeadingUpdate nt) (FitsAs .expr lo) := by
  refine .take (fun _ => id) fun operator inner _ hoperator => ?_
  refine .read (h.expr inner .unary (Nat.le_refl _)) fun operand middle hmiddle hoperand => ?_
  refine ranges_checkAssignable (hoperand middle (Nat.le_refl _)) (.pure fun hi hhi => ?_)
  exact fits_operand rfl rfl (hoperator.mono hlo (Nat.le_refl _)) (hoperand hi hhi)

theorem fits_called {expr callee : Expr} {arguments : List Expr} (hspan : expr.span = ⟨start, stop⟩)
    (hchildren : expr.children = .expr callee :: arguments.map .expr) (hlo : lo ≤ start)
    (hsolid : start < stop) (hhi : stop ≤ hi) (hcallee : FitsAs .expr start stop callee)
    (harguments : EachFits .expr start stop arguments) : FitsAs .expr lo hi expr := by
  refine fits_expr hspan hlo hsolid hhi ?_
  rw [hchildren]
  exact List.forall_mem_cons.mpr ⟨hcallee, List.forall_mem_map.mpr harguments⟩

theorem ranges_readNew (h : nt.Ranging input) (lo : Nat) (hlo : lo ≤ floor) :
    Ranges input continues floor (readNew nt) (FitsAs .expr lo) := by
  refine .take (fun _ => id) fun word inner _ hword => ?_
  obtain ⟨hlower, hsolid, hupper⟩ := hword
  refine .read (h.expr word.span.start .call (by omega)) fun callee middle hmiddle hcallee => ?_
  refine .skip fun called => .ite (fun _ => ?_) fun _ => .given ?_
  · refine .read (ranges_readArguments h word.span.start (by omega)) ?_
    refine fun arguments last hlast harguments => .span fun stop hstop => .pure fun hi hhi => ?_
    exact fits_called rfl rfl (by omega) (by omega) hhi (hcallee stop (by omega))
      (harguments stop (by omega))
  · refine .span fun stop hstop => .pure fun hi hhi => ?_
    exact fits_called rfl rfl (by omega) (by omega) hhi (hcallee stop (by omega))
      (List.forall_mem_nil _)

theorem ranges_readFunctionExpr (h : nt.Ranging input) (lo : Nat) (hlo : lo ≤ floor) :
    Ranges input continues floor (readFunctionExpr nt) (FitsAs .expr lo) := by
  refine .take (fun _ => id) fun word inner _ hword => ?_
  obtain ⟨hlower, hsolid, hupper⟩ := hword
  refine .read ranges_readOptionalName fun name? middle hmiddle _ => ?_
  exact ranges_readFunction h lo (by omega) (by omega) name?

theorem ranges_readClassExpr (h : nt.Ranging input) (lo : Nat) (hlo : lo ≤ floor) :
    Ranges input continues floor (readClassExpr nt) (FitsAs .expr lo) := by
  refine .take (fun _ => id) fun word inner _ hword => ?_
  obtain ⟨hlower, hsolid, hupper⟩ := hword
  refine .read ranges_readOptionalName fun name? middle hmiddle _ => ?_
  refine .read (ranges_readClassTail h word.span.start (by omega)) fun tail last hlast htail => ?_
  refine .span fun stop hstop => .pure fun hi hhi => ?_
  obtain ⟨hsuper, hmembers⟩ := htail stop (by omega)
  refine fits_expr rfl (by omega) (by omega) hhi (List.forall_mem_append.mpr ⟨?_, ?_⟩)
  · exact List.forall_mem_map.mpr hsuper
  · exact List.forall_mem_map.mpr hmembers

theorem ranges_readLeading (h : nt.Ranging input) (lo : Nat) (hlo : lo ≤ floor)
    (form : LeadingForm) :
    Ranges input continues floor (readLeading nt form) (FitsAs .expr lo) := by
  cases form with
  | primary => exact ranges_readPrimary lo hlo
  | template => exact ranges_readTemplate h lo hlo
  | regex => exact ranges_readRegex lo hlo
  | array => exact ranges_readArray h lo hlo
  | object => exact ranges_readObject h lo hlo
  | function => exact ranges_readFunctionExpr h lo hlo
  | classDef => exact ranges_readClassExpr h lo hlo
  | unary => exact ranges_readUnary h lo hlo
  | spread => exact ranges_readSpread h lo hlo
  | update => exact ranges_readLeadingUpdate h lo hlo
  | group => exact ranges_readGroup h lo hlo
  | new => exact ranges_readNew h lo hlo

variable {left : Expr}

theorem fits_trailing {expr : Expr} (hspan : expr.span = ⟨left.span.start, stop⟩)
    (hleft : FitsAs .expr lo floor left) (hstop : floor ≤ stop) (hhi : stop ≤ hi)
    (hchildren : FitsAs .expr left.span.start stop left →
      ∀ child ∈ expr.children, child.Fits left.span.start stop) : FitsAs .expr lo hi expr := by
  have hfits : left.span.Fits lo floor := hleft.span_fits rfl
  have hsolid := hfits.solid
  have hupper := hfits.upper
  exact fits_expr hspan hfits.lower (by omega) hhi (hchildren (fits_first hleft hstop))

theorem start_le_of_fits (hleft : FitsAs .expr lo floor left) : left.span.start ≤ floor := by
  have hfits : left.span.Fits lo floor := hleft.span_fits rfl
  exact Nat.le_trans (Nat.le_of_lt hfits.solid) hfits.upper

theorem ranges_readSequence (h : nt.Ranging input) (lo : Nat) (hleft : FitsAs .expr lo floor left) :
    Ranges input continues floor (readSequence nt left) (FitsAs .expr lo) := by
  have hstart := start_le_of_fits hleft
  refine .take (fun _ => id) fun _ inner _ hcomma => ?_
  obtain ⟨hlower, hsolid, hupper⟩ := hcomma
  refine .read (.separated fun later hlater => h.expr left.span.start .comma (by omega)) ?_
  refine fun others last hlast hothers => .span fun stop hstop => .pure fun hi hhi => ?_
  refine fits_trailing rfl hleft (by omega) hhi fun hfirst => ?_
  exact List.forall_mem_cons.mpr ⟨hfirst, List.forall_mem_map.mpr (hothers stop (by omega))⟩

theorem fits_operands {expr right : Expr} (hspan : expr.span = cover left.span right.span)
    (hchildren : expr.children = [.expr left, .expr right]) (hleft : FitsAs .expr lo floor left)
    (hright : FitsAs .expr floor hi right) : FitsAs .expr lo hi expr := by
  refine fits_cover hspan (hleft.span_fits rfl) hright fun hstop => ?_
  rw [hchildren]
  refine List.forall_mem_cons.mpr ⟨fits_first hleft hstop, List.forall_mem_singleton.mpr ?_⟩
  exact fits_last hright (start_le_of_fits hleft)

theorem ranges_readAssignment (h : nt.Ranging input) (lo : Nat)
    (hleft : FitsAs .expr lo floor left) :
    Ranges input continues floor (readAssignment nt left) (FitsAs .expr lo) := by
  refine ranges_checkAssignable hleft (.take (fun _ => id) fun operator inner _ hoperator => ?_)
  obtain ⟨hlower, hsolid, hupper⟩ := hoperator
  refine .read (h.expr floor .comma (by omega)) fun value middle hmiddle hvalue => ?_
  exact .pure fun hi hhi => fits_operands rfl rfl hleft (hvalue hi hhi)

theorem ranges_readArrow (h : nt.Ranging input) (lo : Nat) (hleft : FitsAs .expr lo floor left) :
    Ranges input continues floor (readArrow nt left) (FitsAs .expr lo) := by
  have hstart := start_le_of_fits hleft
  unfold readArrow
  split
  · rename_i name span
    refine .read (.expect nofun) fun _ inner hinner _ => ?_
    refine .read (ranges_readArrowBody h span.start (Nat.le_trans hstart hinner)) ?_
    refine fun body last hlast hbody => .span fun stop hstop => .pure fun hi hhi => ?_
    refine fits_trailing rfl hleft (by omega) hhi fun _ => ?_
    refine List.forall_mem_cons.mpr ⟨?_, List.forall_mem_singleton.mpr (hbody stop hstop)⟩
    exact .plain rfl (List.forall_mem_singleton.mpr (.plain rfl nofun))
  · exact .fail hstart

theorem ranges_readConditional (h : nt.Ranging input) (lo : Nat)
    (hleft : FitsAs .expr lo floor left) :
    Ranges input continues floor (readConditional nt left) (FitsAs .expr lo) := by
  have hstart := start_le_of_fits hleft
  refine .take (fun _ => id) fun _ inner _ hmark => ?_
  obtain ⟨hlower, hsolid, hupper⟩ := hmark
  refine .read (h.expr left.span.start .comma (by omega)) ?_
  refine fun consequent middle hmiddle hconsequent => .read (.expect nofun) fun _ next hnext _ => ?_
  refine .read (h.expr next .comma (Nat.le_refl _)) fun alternate last hlast halternate => ?_
  refine .pure fun hi hhi => ?_
  have hleft' : FitsAs .expr lo next left := hleft.mono (Nat.le_refl _) (by omega)
  refine fits_cover rfl (hleft'.span_fits rfl) (halternate hi hhi) fun hstop => ?_
  refine List.forall_mem_cons.mpr ⟨fits_first hleft' hstop, List.forall_mem_cons.mpr ⟨?_, ?_⟩⟩
  · exact hconsequent _ (Nat.le_trans hnext hstop)
  · exact List.forall_mem_singleton.mpr (fits_last (halternate hi hhi) (by omega))

theorem ranges_readBinary (h : nt.Ranging input) (lo : Nat) (power : Power)
    (hleft : FitsAs .expr lo floor left) :
    Ranges input continues floor (readBinary nt power left) (FitsAs .expr lo) := by
  refine .take (fun _ => id) fun operator inner _ hoperator => ?_
  obtain ⟨hlower, hsolid, hupper⟩ := hoperator
  refine .read (h.expr floor power (by omega)) fun right middle hmiddle hright => ?_
  exact .pure fun hi hhi => fits_operands rfl rfl hleft (hright hi hhi)

theorem ranges_readTrailingUpdate (lo : Nat) (hleft : FitsAs .expr lo floor left) :
    Ranges input continues floor (readTrailingUpdate left) (FitsAs .expr lo) := by
  refine ranges_checkAssignable hleft (.take (fun _ => id) fun operator inner _ hoperator => ?_)
  obtain ⟨hlower, hsolid, hupper⟩ := hoperator
  refine .pure fun hi hhi => fits_trailing rfl hleft (by omega) (by omega) fun hfirst => ?_
  exact List.forall_mem_singleton.mpr hfirst

theorem ranges_readCall (h : nt.Ranging input) (lo : Nat) (hleft : FitsAs .expr lo floor left) :
    Ranges input continues floor (readCall nt left) (FitsAs .expr lo) := by
  refine .read (ranges_readArguments h left.span.start (start_le_of_fits hleft)) ?_
  refine fun arguments last hlast harguments => .span fun stop hstop => .pure fun hi hhi => ?_
  refine fits_trailing rfl hleft (by omega) hhi fun hfirst => ?_
  exact List.forall_mem_cons.mpr ⟨hfirst, List.forall_mem_map.mpr (harguments stop hstop)⟩

theorem ranges_readMemberAccess (lo : Nat) (hleft : FitsAs .expr lo floor left) :
    Ranges input continues floor (readMemberAccess left) (FitsAs .expr lo) := by
  refine .take (fun _ => id) fun _ inner _ hdot => .see fun name _ => .ite (fun _ => ?_) fun _ => ?_
  · obtain ⟨hlower, hsolid, hupper⟩ := hdot
    refine .read .pass fun _ last hlast _ => .span fun stop hstop => .pure fun hi hhi => ?_
    refine fits_trailing rfl hleft (by omega) hhi fun hfirst => ?_
    exact List.forall_mem_singleton.mpr hfirst
  · exact .fail_now fun _ hsame => hsame ▸ rfl

theorem ranges_readIndex (h : nt.Ranging input) (lo : Nat) (hleft : FitsAs .expr lo floor left) :
    Ranges input continues floor (readIndex nt left) (FitsAs .expr lo) := by
  have hstart := start_le_of_fits hleft
  refine .take (fun _ => id) fun _ inner _ hbracket => ?_
  obtain ⟨hlower, hsolid, hupper⟩ := hbracket
  refine .read (h.expr left.span.start .none (by omega)) fun index middle hmiddle hindex => ?_
  refine .read (.expect nofun) fun _ last hlast _ => .span fun stop hstop => .pure fun hi hhi => ?_
  refine fits_trailing rfl hleft (by omega) hhi fun hfirst => ?_
  exact List.forall_mem_cons.mpr ⟨hfirst, List.forall_mem_singleton.mpr (hindex stop (by omega))⟩

theorem ranges_readTrailing (h : nt.Ranging input) (lo : Nat) (hleft : FitsAs .expr lo floor left)
    (power : Power) (form : TrailingForm) :
    Ranges input continues floor (readTrailing nt left power form) (FitsAs .expr lo) := by
  cases form with
  | sequence => exact ranges_readSequence h lo hleft
  | assignment => exact ranges_readAssignment h lo hleft
  | arrow => exact ranges_readArrow h lo hleft
  | conditional => exact ranges_readConditional h lo hleft
  | binary => exact ranges_readBinary h lo power hleft
  | exponent => exact ranges_readBinary h lo .multiplicative hleft
  | update => exact ranges_readTrailingUpdate lo hleft
  | call => exact ranges_readCall h lo hleft
  | member => exact ranges_readMemberAccess lo hleft
  | index => exact ranges_readIndex h lo hleft

theorem ranges_readContinuation (h : nt.Ranging input) (lo : Nat) (power : Power)
    (hleft : FitsAs .expr lo floor left) :
    Ranges input now floor (readContinuation nt power left)
      (Ranges.againGood (FitsAs .expr lo) (FitsAs .expr lo)) := by
  have hsame (hi : Nat) (hhi : floor ≤ hi) : FitsAs .expr lo hi left :=
    hleft.mono (Nat.le_refl _) hhi
  refine .of_input fun hinput => .see_input fun token _ => .at_input ?_
  split
  · exact .pure hsame
  · rename_i form own htrailing
    split
    · exact .pure hsame
    · have hcontinues : continues token := by
        intro hkind
        rw [hkind, hinput.trailing] at htrailing
        cases htrailing
      have hlarger : Ranges input (· = token) floor (readTrailing nt left own form)
          (FitsAs .expr lo) :=
        (ranges_readTrailing h lo hleft own form).given_now fun _ hsame => hsame ▸ hcontinues
      exact .read hlarger.to_input fun larger middle _ hlarger => .pure hlarger

theorem ranges_readExpr (h : nt.Ranging input) (lo : Nat) (power : Power) (hlo : lo ≤ floor) :
    Ranges input now floor (readExpr nt power) (FitsAs .expr lo) := by
  refine .of_input fun hinput => .see_input fun token _ => .at_input ?_
  split
  · exact .to_input (.fail_now fun _ hsame => hsame ▸ rfl)
  · rename_i form hleading
    have hcontinues : continues token := by
      intro hkind
      rw [hkind, hinput.leading] at hleading
      cases hleading
    have hfirst : Ranges input (· = token) floor (readLeading nt form) (FitsAs .expr lo) :=
      (ranges_readLeading h lo hlo form).given_now fun _ hsame => hsame ▸ hcontinues
    refine .to_input (.read hfirst fun left middle _ hleft => .iterate ?_ hleft)
    exact fun larger later _ hlarger =>
      ranges_readContinuation h lo power (hlarger later (Nat.le_refl _))

end Expressions

end ScriptKinds.Grammar
