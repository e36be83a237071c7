import ScriptKinds.Proofs.Inference.Contribution
import ScriptKinds.Proofs.Kind.Members

/-!
Assignments as values.

An assignment is classified when it is written to its target, and again when its
value goes on to another target.  In between the target has gained kinds, and
the value may mention it.  That makes no difference: an expression that has
exactly one kind keeps it when a symbol gains that kind, and one about whose kind
nothing is known does not become known when a symbol gains the kind `unknown`.
-/

namespace ScriptKinds

section Operators

variable {operator : TokenKind} {kind : Kind} (hknown : kind ≠ .unknown)

include hknown

theorem binaryKind_kept {left right wideLeft wideRight : KindSet}
    (hleft : left = .singleton kind → wideLeft = .singleton kind)
    (hright : right = .singleton kind → wideRight = .singleton kind)
    (h : binaryKind operator left right = kind) :
    binaryKind operator wideLeft wideRight = kind := by
  simp only [binaryKind, Bool.and_eq_true, Bool.or_eq_true, KindSet.isExactly_iff] at h ⊢
  by_cases hplus : operator = .plus
  · simp only [if_pos hplus] at h ⊢
    split at h
    · rename_i hnumbers
      subst h
      rw [if_pos ⟨hleft hnumbers.1, hright hnumbers.2⟩]
    · split at h
      · rename_i hstring
        subst h
        have hwide : wideLeft = .singleton .string ∨ wideRight = .singleton .string :=
          hstring.imp hleft hright
        rw [if_neg, if_pos hwide]
        rintro ⟨rfl, rfl⟩
        simp [KindSet.singleton_inj] at hwide
      · exact absurd h.symm hknown
  · simp only [if_neg hplus] at h ⊢
    split at h
    · rename_i harithmetic
      rw [if_pos harithmetic]
      split at h
      · rename_i hnumbers
        subst h
        rw [if_pos ⟨hleft hnumbers.1, hright hnumbers.2⟩]
      · exact absurd h.symm hknown
    · rename_i harithmetic
      rw [if_neg harithmetic]
      exact h

theorem unaryKind_kept {operand wide : KindSet}
    (hoperand : operand = .singleton kind → wide = .singleton kind)
    (h : unaryKind operator operand = kind) : unaryKind operator wide = kind := by
  unfold unaryKind at h ⊢
  simp only [KindSet.isExactly_iff] at h ⊢
  split at h
  case h_5 | h_6 | h_7 =>
    split at h
    · rename_i hnumber
      subst h
      rw [if_pos (hoperand hnumber)]
    · exact absurd h.symm hknown
  all_goals simp_all

end Operators

namespace Model

/-- The names of a model that have a known kind, and no other, have it in another
model too. -/
structure Keeps (model other : Model) (kind : Kind) : Prop where
  known : kind ≠ .unknown
  newKind : ∀ callee, other.newKind callee = model.newKind callee
  names : ∀ name, model.kindsOf name = .singleton kind → other.kindsOf name = .singleton kind

section Keeps

variable {model other : Model} {kind : Kind}

mutual

theorem classify_kept (hkeeps : model.Keeps other kind) (expr : Expr)
    (h : classify model expr = .singleton kind) :
    classify other expr = .singleton kind := by
  match expr with
  | .symbol name span =>
      rw [classify] at h ⊢
      exact hkeeps.names name h
  | .assignment operator target value span =>
      rw [classify] at h ⊢
      split
      · rename_i hplain
        rw [if_pos hplain] at h
        exact classify_kept hkeeps value h
      · rename_i hplain
        rw [if_neg hplain] at h
        split
        · rename_i binary hbinary
          rw [hbinary] at h
          rw [KindSet.singleton_inj] at h ⊢
          exact binaryKind_kept hkeeps.known (classify_kept hkeeps target)
            (classify_kept hkeeps value) h
        · rename_i hnone
          rwa [hnone] at h
  | .sequence operands span =>
      rw [classify] at h ⊢
      exact classifyLast_kept hkeeps operands h
  | .binary operator left right span =>
      rw [classify, KindSet.singleton_inj] at h ⊢
      exact binaryKind_kept hkeeps.known (classify_kept hkeeps left) (classify_kept hkeeps right) h
  | .unary operator operand span =>
      rw [classify, KindSet.singleton_inj] at h ⊢
      exact unaryKind_kept hkeeps.known (classify_kept hkeeps operand) h
  | .new callee arguments span =>
      rw [classify] at h ⊢
      rwa [hkeeps.newKind]
  | .number _ _ | .string _ _ _ | .template _ _ _ | .boolean _ _ | .null _ | .array _ _
  | .object _ _ | .regex _ _ _ | .function _ _ _ _ _ | .classDef _ _ _ _ | .update _ _ _ _
  | .call _ _ _ | .member _ _ _ | .index _ _ _ | .conditional _ _ _ _ | .spread _ _ =>
      rw [classify] at h ⊢
      exact h

theorem classifyLast_kept (hkeeps : model.Keeps other kind) (exprs : List Expr)
    (h : classifyLast model exprs = .singleton kind) :
    classifyLast other exprs = .singleton kind := by
  match exprs with
  | [] =>
      rw [classifyLast] at h ⊢
      exact h
  | [last] =>
      rw [classifyLast] at h ⊢
      exact classify_kept hkeeps last h
  | _ :: next :: others =>
      rw [classifyLast] at h ⊢
      exact classifyLast_kept hkeeps (next :: others) h

end

end Keeps

mutual

theorem classify_form (expr : Expr) :
    (∃ name, ∀ model, classify model expr = model.kindsOf name) ∨
      ∀ model, ∃ kind, classify model expr = .singleton kind := by
  match expr with
  | .symbol name span => exact .inl ⟨name, fun model => by rw [classify]⟩
  | .assignment operator target value span =>
      by_cases hplain : operator.kind = .assignment
      · simp only [classify, if_pos hplain]
        exact classify_form value
      · right
        intro model
        rw [classify, if_neg hplain]
        split
        · exact ⟨_, rfl⟩
        · exact ⟨_, rfl⟩
  | .sequence operands span =>
      simp only [classify]
      exact classifyLast_form operands
  | .binary _ _ _ _ | .unary _ _ _ | .new _ _ _ | .number _ _ | .string _ _ _ | .template _ _ _
  | .boolean _ _ | .null _ | .array _ _ | .object _ _ | .regex _ _ _ | .function _ _ _ _ _
  | .classDef _ _ _ _ | .update _ _ _ _ | .call _ _ _ | .member _ _ _ | .index _ _ _
  | .conditional _ _ _ _ | .spread _ _ =>
      right
      intro model
      rw [classify]
      exact ⟨_, rfl⟩

theorem classifyLast_form (exprs : List Expr) :
    (∃ name, ∀ model, classifyLast model exprs = model.kindsOf name) ∨
      ∀ model, ∃ kind, classifyLast model exprs = .singleton kind := by
  match exprs with
  | [] => exact .inr fun model => ⟨.unknown, by rw [classifyLast]⟩
  | [last] =>
      simp only [classifyLast]
      exact classify_form last
  | _ :: next :: others =>
      simp only [classifyLast]
      exact classifyLast_form (next :: others)

end

theorem symbol?_widen (model : Model) (node : NodeId) (kinds : KindSet) (id : SymbolId) :
    (model.widen node kinds).symbol? id = (model.symbol? id).map fun symbol =>
      if model.resolve? node = some id then { symbol with kinds := symbol.kinds.union kinds }
      else symbol := by
  unfold widen
  cases hresolve : model.resolve? node with
  | none => simp
  | some target =>
      simp only [symbol?, Array.getElem?_modify, Option.some.injEq]
      split <;> simp

theorem kindsOf_widen (model : Model) (node : NodeId) (kinds : KindSet) (name : Identifier) :
    (model.widen node kinds).kindsOf name = model.kindsOf name ∨
      (model.widen node kinds).kindsOf name = (model.kindsOf name).union kinds := by
  simp only [kindsOf, symbolFor?, (Widens.widen model node kinds).resolve?_eq]
  cases model.resolve? name.id with
  | none => exact .inl rfl
  | some id =>
      simp only [Option.bind_some, symbol?_widen]
      cases model.symbol? id with
      | none => exact .inl rfl
      | some symbol =>
          simp only [Option.map_some]
          split
          · exact .inr rfl
          · exact .inl rfl

theorem keeps_widen (model : Model) (node : NodeId) {kind : Kind} (hknown : kind ≠ .unknown) :
    model.Keeps (model.widen node (.singleton kind)) kind where
  known := hknown
  newKind := (Widens.widen model node (.singleton kind)).newKind_eq
  names name h := by
    rcases kindsOf_widen model node (.singleton kind) name with hkept | hgained
    · rw [hkept, h]
    · rw [hgained, h, KindSet.union_self]

/-- A name that has a known kind, and no other, has had it before a symbol gained
the kind `unknown`. -/
theorem keeps_of_widen (model : Model) (node : NodeId) {kind : Kind} (hknown : kind ≠ .unknown) :
    (model.widen node (.singleton .unknown)).Keeps model kind where
  known := hknown
  newKind callee := ((Widens.widen model node (.singleton .unknown)).newKind_eq callee).symm
  names name h := by
    rcases kindsOf_widen model node (.singleton .unknown) name with hkept | hgained
    · rwa [← hkept]
    · rw [hgained] at h
      exact absurd (KindSet.eq_of_union_singleton h).symm hknown

theorem classify_widen (model : Model) (node : NodeId) (expr : Expr) :
    classify (model.widen node (classify model expr)) expr = classify model expr := by
  rcases classify_form expr with ⟨name, hname⟩ | hsingle
  · rw [hname, hname]
    rcases kindsOf_widen model node (model.kindsOf name) name with hkept | hgained
    · exact hkept
    · rw [hgained, KindSet.union_self]
  · obtain ⟨kind, hkind⟩ := hsingle model
    rw [hkind]
    by_cases hknown : kind = .unknown
    · subst hknown
      obtain ⟨wide, hwide⟩ := hsingle (model.widen node (.singleton .unknown))
      by_cases hstill : wide = .unknown
      · rw [hwide, hstill]
      · have hbefore := classify_kept (keeps_of_widen model node hstill) expr hwide
        rw [hwide, ← hbefore, hkind]
    · exact classify_kept (keeps_widen model node hknown) expr hkind

end Model

/-- A name that is assigned to, with the operator behind it and the place of the
assignment. -/
structure Assignee where
  name : Identifier
  nameSpan : Span
  operator : Token
  span : Span

/-- The assignment of a value to the name. -/
def Assignee.assign (assignee : Assignee) (value : Expr) : Expr :=
  .assignment assignee.operator (.symbol assignee.name assignee.nameSpan) value assignee.span

/-- The expression that assigns a value to some names, to the last of them
first. -/
def chained (assignees : List Assignee) (value : Expr) : Expr :=
  assignees.foldr Assignee.assign value

namespace Model

/-- Adds kinds to those of the symbols of some occurrences, of the last of them
first. -/
def widenAll (model : Model) (nodes : List NodeId) (kinds : KindSet) : Model :=
  nodes.foldr (fun node wide => wide.widen node kinds) model

theorem Widens.widenAll (model : Model) (nodes : List NodeId) (kinds : KindSet) :
    model.Widens (model.widenAll nodes kinds) := by
  induction nodes with
  | nil => exact refl model
  | cons node others ih => exact ih.trans (widen _ node kinds)

theorem symbol?_widenAll (model : Model) (nodes : List NodeId) (kinds : KindSet) (id : SymbolId) :
    (model.widenAll nodes kinds).symbol? id = (model.symbol? id).map fun symbol =>
      if ∃ node ∈ nodes, model.resolve? node = some id then
        { symbol with kinds := symbol.kinds.union kinds }
      else symbol := by
  induction nodes with
  | nil => simp [widenAll]
  | cons node others ih =>
      change ((model.widenAll others kinds).widen node kinds).symbol? id = _
      rw [symbol?_widen, ih, (Widens.widenAll model others kinds).resolve?_eq, Option.map_map]
      congr 1
      funext symbol
      by_cases hnode : model.resolve? node = some id <;>
        by_cases hothers : ∃ node ∈ others, model.resolve? node = some id <;>
        simp [hnode, hothers, KindSet.union_assoc, KindSet.union_self]

theorem writeAll_append (model : Model) (sites others : List WriteSite) :
    model.writeAll (sites ++ others) = (model.writeAll sites).writeAll others :=
  List.foldl_append

/-- The value of a chain of assignments is classified alike at each of its
targets. -/
theorem writeAll_chained (model : Model) (assignees : List Assignee) (value : Expr)
    (hplain : ∀ assignee ∈ assignees, assignee.operator.kind = .assignment) :
    model.writeAll (chained assignees value).writes =
        (model.writeAll value.writes).widenAll (assignees.map fun assignee => assignee.name.id)
          (classify (model.writeAll value.writes) value) ∧
      classify (model.writeAll (chained assignees value).writes) (chained assignees value) =
        classify (model.writeAll value.writes) value := by
  induction assignees with
  | nil => exact ⟨rfl, rfl⟩
  | cons assignee others ih =>
      rw [List.forall_mem_cons] at hplain
      obtain ⟨hwritten, hvalue⟩ := ih hplain.2
      have hassigned (before : Model) :
          classify before (chained (assignee :: others) value) =
            classify before (chained others value) := by
        change classify before (assignee.assign (chained others value)) = _
        rw [Assignee.assign, classify, if_pos hplain.1]
      have hlast : model.writeAll (chained (assignee :: others) value).writes =
          (model.writeAll (chained others value).writes).widen assignee.name.id
            (classify (model.writeAll value.writes) value) := by
        rw [← hvalue, ← hassigned]
        change model.writeAll (assignee.assign (chained others value)).writes = _
        rw [Assignee.assign, Expr.writes, writeAll_append]
        rfl
      constructor
      · rw [hlast, hwritten]
        rfl
      · rw [hassigned, hlast, ← hvalue]
        exact classify_widen _ _ _

theorem symbol?_widenAll_of_mem {model : Model} {nodes : List NodeId} {node : NodeId}
    (hnode : node ∈ nodes) (kinds : KindSet) {id : SymbolId} {symbol : Symbol}
    (hresolve : model.resolve? node = some id) (hsymbol : model.symbol? id = some symbol) :
    (model.widenAll nodes kinds).symbol? id =
      some { symbol with kinds := symbol.kinds.union kinds } := by
  rw [symbol?_widenAll, hsymbol, Option.map_some, if_pos ⟨node, hnode, hresolve⟩]

/-- A variable that is declared with an assignment as its value receives what
the assigned name has received. -/
theorem visit_declared (model : Model) (kind : DeclarationKind) (bound : Identifier)
    (assignee : Assignee) (value : Expr) (declared span : Span) :
    model.visit
        (.varDeclaration kind [⟨.name bound, some (assignee.assign value), declared⟩] span) =
      (model.writeAll value.writes).widenAll [bound.id, assignee.name.id]
        (classify (model.writeAll value.writes) (assignee.assign value)) := by
  have hwrites :
      (Stmt.varDeclaration kind
          [⟨.name bound, some (assignee.assign value), declared⟩] span).writes =
        value.writes ++ [.ofValue (assignee.assign value) assignee.name,
          .ofValue (assignee.assign value) bound] := by
    simp [Stmt.writes, declaratorWrites, Assignee.assign, Expr.writes]
  rw [visit, hwrites, writeAll_append]
  generalize model.writeAll value.writes = before
  change (before.widen assignee.name.id _).widen bound.id (classify (before.widen assignee.name.id
    (classify before (assignee.assign value))) (assignee.assign value)) = _
  rw [classify_widen]
  rfl

/-- An assignment to a name keeps its kinds when the symbol of the name gains
them.  So all the targets of a chain of assignments receive the same kinds,
those of the value, and a variable that is declared with an assignment as its
value receives what the assigned name does, also if the value mentions these
names. -/
theorem assignment_stable (model : Model) :
    (∀ (assignee : Assignee) (value : Expr),
      classify (model.widen assignee.name.id (classify model (assignee.assign value)))
          (assignee.assign value) =
        classify model (assignee.assign value)) ∧
      (∀ (assignees : List Assignee) (value : Expr) (span : Span),
        (∀ assignee ∈ assignees, assignee.operator.kind = .assignment) →
          let before := model.writeAll value.writes
          let after := model.visit (.expression (chained assignees value) span)
          after = before.widenAll (assignees.map fun assignee => assignee.name.id)
              (classify before value) ∧
            ∀ assignee ∈ assignees, ∀ id symbol, model.resolve? assignee.name.id = some id →
              before.symbol? id = some symbol →
                after.symbol? id = some
                  { symbol with kinds := symbol.kinds.union (classify before value) }) ∧
      ∀ (kind : DeclarationKind) (bound : Identifier) (assignee : Assignee) (value : Expr)
        (declared span : Span),
        let before := model.writeAll value.writes
        let after := model.visit
          (.varDeclaration kind [⟨.name bound, some (assignee.assign value), declared⟩] span)
        let kinds := classify before (assignee.assign value)
        after = before.widenAll [bound.id, assignee.name.id] kinds ∧
          ∀ node ∈ [bound.id, assignee.name.id], ∀ id symbol, model.resolve? node = some id →
            before.symbol? id = some symbol →
              after.symbol? id = some { symbol with kinds := symbol.kinds.union kinds } := by
  refine ⟨fun assignee value => classify_widen _ _ _, ?_, ?_⟩
  · intro assignees value span hplain before after
    have hafter : after = before.widenAll _ _ := (writeAll_chained model assignees value hplain).1
    refine ⟨hafter, fun assignee hassignee id symbol hresolve hsymbol => ?_⟩
    rw [← (Widens.writeAll model value.writes).resolve?_eq] at hresolve
    rw [hafter]
    exact symbol?_widenAll_of_mem (List.mem_map_of_mem hassignee) _ hresolve hsymbol
  · intro kind bound assignee value declared span before after kinds
    have hafter : after = before.widenAll _ kinds :=
      visit_declared model kind bound assignee value declared span
    refine ⟨hafter, fun node hnode id symbol hresolve hsymbol => ?_⟩
    rw [← (Widens.writeAll model value.writes).resolve?_eq] at hresolve
    rw [hafter]
    exact symbol?_widenAll_of_mem hnode _ hresolve hsymbol

/-- A model of the number `x` and of `y`, about which nothing is known. -/
def sumModel : Model :=
  ⟨#[⟨0, "x", .variable, 4, 0, .singleton .number⟩, ⟨1, "y", .variable, 7, 0, .empty⟩],
    #[⟨0, .script, none, [("x", 0), ("y", 1)]⟩], .ofList [(1, 1), (2, 0), (3, 0)]⟩

/-- The expression `x + 'a'`. -/
def sumValue : Expr :=
  .binary ⟨.plus, "+", ⟨19, 20⟩, false⟩ (.symbol ⟨"x", 3⟩ ⟨17, 18⟩)
    (.string "a" false ⟨21, 24⟩) ⟨17, 24⟩

/-- The targets of `y = x = x + 'a'`. -/
def sumAssignees : List Assignee :=
  [⟨⟨"y", 1⟩, ⟨9, 10⟩, ⟨.assignment, "=", ⟨11, 12⟩, false⟩, ⟨9, 24⟩⟩,
    ⟨⟨"x", 2⟩, ⟨13, 14⟩, ⟨.assignment, "=", ⟨15, 16⟩, false⟩, ⟨13, 24⟩⟩]

/-- After `y = x = x + 'a'` the name `y` is a string, as the value was when `x`
was still a number. -/
theorem assignment_stable_in_sum :
    (∀ assignee ∈ sumAssignees, assignee.operator.kind = .assignment) ∧
      sumModel.resolve? 1 = some 1 ∧
      (sumModel.visit (.expression (chained sumAssignees sumValue) ⟨9, 24⟩)).symbol? 1 =
        some ⟨1, "y", .variable, 7, 0, .singleton .string⟩ := by
  have hplain : ∀ assignee ∈ sumAssignees, assignee.operator.kind = .assignment := by decide
  have hresolve : sumModel.resolve? 1 = some 1 := by decide +kernel
  have hstring : classify (sumModel.writeAll sumValue.writes) sumValue = .singleton .string := by
    decide +kernel
  refine ⟨hplain, hresolve, ?_⟩
  have hreceived := ((assignment_stable sumModel).2.1 sumAssignees sumValue ⟨9, 24⟩ hplain).2 _
    (.head _) 1 ⟨1, "y", .variable, 7, 0, .empty⟩ hresolve rfl
  rw [hreceived, hstring]
  rfl

end Model

end ScriptKinds
