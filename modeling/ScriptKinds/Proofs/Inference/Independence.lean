import ScriptKinds.Proofs.Inference.Visiting

namespace ScriptKinds

namespace Node

/-- The occurrences of names that a node reads, which are the names that its
expressions consist of, or gives a value to.  A name that is only declared is
not mentioned. -/
inductive Mentions (node : Node) : NodeId → Prop where
  | read {name : Identifier} {span : Span} (h : Inside (.expr (.symbol name span)) node) :
      Mentions node name.id
  | write {site : WriteSite} (h : site ∈ node.writes) : Mentions node site.target

end Node

/-- Whether all names that an expression consists of are among some
occurrences. -/
def Expr.ReadsWithin (expr : Expr) (mentioned : NodeId → Prop) : Prop :=
  ∀ name span, Node.Inside (.expr (.symbol name span)) (.expr expr) → mentioned name.id

theorem Expr.ReadsWithin.part {expr part : Expr} {mentioned : NodeId → Prop}
    (h : expr.ReadsWithin mentioned) (hpart : .expr part ∈ expr.children) :
    part.ReadsWithin mentioned :=
  fun name span hinside => h name span (.deeper hpart hinside)

/-- The target of a write site, and all names in the value that it contributes,
are among some occurrences. -/
structure WriteSite.Within (site : WriteSite) (mentioned : NodeId → Prop) : Prop where
  target : mentioned site.target
  value : ∀ value, site.contribution = .value value → value.ReadsWithin mentioned

theorem Node.within_writes {site : WriteSite} {node : Node} (h : site ∈ node.writes) :
    site.Within node.Mentions := by
  refine ⟨.write h, fun value hvalue name span hname => ?_⟩
  rw [← site_effects] at h
  obtain ⟨effect, heffect, rfl⟩ := List.mem_map.mp h
  obtain ⟨inner, hinside, hsite⟩ := site_of_mem_effects heffect
  exact .read ((hname.trans (inside_of_sites hsite hvalue)).trans hinside)

namespace Model

/-- The kinds of a symbol, if there is one. -/
def kindsAt? (model : Model) (id : SymbolId) : Option KindSet :=
  (model.symbol? id).map Symbol.kinds

/-- Whether a statement reads or writes a symbol. -/
def Mentions (model : Model) (stmt : Stmt) (id : SymbolId) : Prop :=
  ∃ occurrence, (Node.stmt stmt).Mentions occurrence ∧ model.resolve? occurrence = some id

/-- Whether a write site in a statement gives a value to a symbol. -/
def Writes (model : Model) (stmt : Stmt) (id : SymbolId) : Prop :=
  ∃ site ∈ stmt.writes, model.resolve? site.target = some id

/-- Models in which some occurrences stand for the same symbols, with the same
kinds.  Nothing is said about the other symbols. -/
structure Agrees (model other : Model) (mentioned : NodeId → Prop) : Prop where
  resolve? : ∀ occurrence, mentioned occurrence →
    other.resolve? occurrence = model.resolve? occurrence
  kindsAt? : ∀ occurrence, mentioned occurrence → ∀ id, model.resolve? occurrence = some id →
    other.kindsAt? id = model.kindsAt? id

variable {model other : Model} {mentioned : NodeId → Prop} {name : Identifier} {id : SymbolId}

theorem kinds_symbolFor? (model : Model) (node : NodeId) :
    (model.symbolFor? node).map Symbol.kinds = (model.resolve? node).bind model.kindsAt? := by
  rw [symbolFor?, Option.map_bind]
  rfl

theorem Agrees.kinds_symbolFor? (h : model.Agrees other mentioned) {node : NodeId}
    (hnode : mentioned node) :
    (other.symbolFor? node).map Symbol.kinds = (model.symbolFor? node).map Symbol.kinds := by
  rw [Model.kinds_symbolFor?, Model.kinds_symbolFor?, h.resolve? node hnode]
  cases hresolve : model.resolve? node with
  | none => rfl
  | some id => exact h.kindsAt? node hnode id hresolve

theorem kindsOf_eq_getD (model : Model) (name : Identifier) :
    model.kindsOf name = ((model.symbolFor? name.id).map Symbol.kinds).getD
      (.singleton (if name.name = "undefined" then .undefined else .unknown)) := by
  unfold kindsOf
  cases model.symbolFor? name.id <;> rfl

theorem Agrees.kindsOf_eq (h : model.Agrees other mentioned) (hname : mentioned name.id) :
    other.kindsOf name = model.kindsOf name := by
  rw [kindsOf_eq_getD, kindsOf_eq_getD, h.kinds_symbolFor? hname]

theorem newKind_symbol (model : Model) (name : Identifier) (span : Span) :
    model.newKind (.symbol name span) =
      if ((model.symbolFor? name.id).map Symbol.kinds).isSome then .unknown
      else constructedKind name.name := by
  simp only [newKind]
  cases model.symbolFor? name.id <;> rfl

theorem Agrees.newKind_eq {callee : Expr} (h : model.Agrees other mentioned)
    (hcallee : callee.ReadsWithin mentioned) : other.newKind callee = model.newKind callee := by
  cases callee with
  | symbol name span =>
      rw [newKind_symbol, newKind_symbol, h.kinds_symbolFor? (hcallee name span (.self _))]
  | _ => rfl

mutual

theorem Agrees.classify_eq (h : model.Agrees other mentioned) (expr : Expr)
    (hexpr : expr.ReadsWithin mentioned) : classify other expr = classify model expr := by
  match expr with
  | .symbol name span =>
      rw [classify, classify]
      exact h.kindsOf_eq (hexpr name span (.self _))
  | .assignment operator target value span =>
      have htarget := hexpr.part List.mem_cons_self
      have hvalue := hexpr.part (List.mem_cons_of_mem _ List.mem_cons_self)
      rw [classify, classify, Agrees.classify_eq h target htarget, Agrees.classify_eq h value hvalue]
  | .sequence operands span =>
      rw [classify, classify]
      exact Agrees.classifyLast_eq h operands fun operand hoperand =>
        hexpr.part (List.mem_map_of_mem hoperand)
  | .binary operator left right span =>
      have hleft := hexpr.part List.mem_cons_self
      have hright := hexpr.part (List.mem_cons_of_mem _ List.mem_cons_self)
      rw [classify, classify, Agrees.classify_eq h left hleft, Agrees.classify_eq h right hright]
  | .unary operator operand span =>
      rw [classify, classify, Agrees.classify_eq h operand (hexpr.part List.mem_cons_self)]
  | .new callee arguments span =>
      rw [classify, classify, h.newKind_eq (hexpr.part List.mem_cons_self)]
  | .number _ _ | .string _ _ _ | .template _ _ _ | .boolean _ _ | .null _ | .array _ _
  | .object _ _ | .regex _ _ _ | .function _ _ _ _ _ | .classDef _ _ _ _ | .update _ _ _ _
  | .call _ _ _ | .member _ _ _ | .index _ _ _ | .conditional _ _ _ _ | .spread _ _ =>
      rw [classify, classify]

theorem Agrees.classifyLast_eq (h : model.Agrees other mentioned) (exprs : List Expr)
    (hexprs : ∀ expr ∈ exprs, expr.ReadsWithin mentioned) :
    classifyLast other exprs = classifyLast model exprs := by
  match exprs with
  | [] => rw [classifyLast, classifyLast]
  | [last] =>
      rw [classifyLast, classifyLast]
      exact Agrees.classify_eq h last (hexprs last List.mem_cons_self)
  | _ :: next :: others =>
      rw [classifyLast, classifyLast]
      exact Agrees.classifyLast_eq h (next :: others) fun expr hexpr =>
        hexprs expr (List.mem_cons_of_mem _ hexpr)

end

theorem Agrees.contributed_eq {site : WriteSite} (h : model.Agrees other mentioned)
    (hsite : site.Within mentioned) :
    other.contributed site.contribution = model.contributed site.contribution := by
  cases hcontribution : site.contribution with
  | kind kind => rfl
  | value value => exact h.classify_eq value (hsite.value value hcontribution)

theorem kindsAt?_write (model : Model) (site : WriteSite) (id : SymbolId) :
    (model.write site).kindsAt? id = (model.kindsAt? id).map fun kinds =>
      if model.resolve? site.target = some id then
        kinds.union (model.contributed site.contribution)
      else kinds := by
  by_cases hresolve : model.resolve? site.target = some id
  · simp only [Model.kindsAt?, symbol?, write, widen, hresolve, if_true, Array.getElem?_modify,
      Option.map_map]
    rfl
  · rw [Model.kindsAt?, symbol?_write hresolve]
    simp [Model.kindsAt?, hresolve, Function.comp_def]

theorem Agrees.write {site : WriteSite} (h : model.Agrees other mentioned)
    (hsite : site.Within mentioned) : (model.write site).Agrees (other.write site) mentioned where
  resolve? occurrence hmentioned := by
    rw [(Widens.write model site).resolve?_eq, (Widens.write other site).resolve?_eq]
    exact h.resolve? occurrence hmentioned
  kindsAt? occurrence hmentioned id hresolve := by
    rw [(Widens.write model site).resolve?_eq] at hresolve
    rw [kindsAt?_write, kindsAt?_write, h.kindsAt? occurrence hmentioned id hresolve,
      h.contributed_eq hsite, h.resolve? site.target hsite.target]

theorem Agrees.writeAll {sites : List WriteSite} (h : model.Agrees other mentioned)
    (hsites : ∀ site ∈ sites, site.Within mentioned) :
    (model.writeAll sites).Agrees (other.writeAll sites) mentioned := by
  induction sites generalizing model other with
  | nil => exact h
  | cons site others ih =>
      rw [List.forall_mem_cons] at hsites
      exact ih (h.write hsites.1) hsites.2

/-- The kinds after a visit depend on those kinds only that the symbols had
before which the statement mentions. -/
theorem Agrees.visit {stmt : Stmt} (h : model.Agrees other (Node.stmt stmt).Mentions) :
    (model.visit stmt).Agrees (other.visit stmt) (Node.stmt stmt).Mentions :=
  h.writeAll fun _ hsite => @Node.within_writes _ (.stmt stmt) hsite

section Commuting

variable {first second stmt : Stmt}

theorem Writes.mentions (h : model.Writes stmt id) : model.Mentions stmt id := by
  obtain ⟨site, hsite, hresolve⟩ := h
  exact ⟨site.target, (@Node.within_writes _ (.stmt stmt) hsite).target, hresolve⟩

theorem Widens.visit (model : Model) (stmt : Stmt) : model.Widens (model.visit stmt) :=
  .writeAll model stmt.writes

theorem Widens.writes_iff (h : model.Widens other) :
    other.Writes stmt id ↔ model.Writes stmt id := by
  simp only [Writes, h.resolve?_eq]

theorem symbol?_visit (h : ¬model.Writes stmt id) :
    (model.visit stmt).symbol? id = model.symbol? id := by
  apply symbol?_writeAll
  intro site hsite hresolve
  exact h ⟨site, hsite, hresolve⟩

theorem Widens.symbol?_eq {wide wider : Model} (h : model.Widens wide) (h' : model.Widens wider)
    (hkinds : wide.kindsAt? id = wider.kindsAt? id) : wide.symbol? id = wider.symbol? id := by
  obtain ⟨kinds, hwide⟩ := h.symbol id
  obtain ⟨more, hwider⟩ := h'.symbol id
  rw [Model.kindsAt?, Model.kindsAt?, hwide, hwider] at hkinds
  rw [hwide, hwider]
  cases hsymbol : model.symbol? id with
  | none => rfl
  | some symbol => simp_all

/-- Before a statement, a visit that writes nothing mentioned in it makes a
difference only to the symbols written by the visit. -/
theorem symbol?_visit_visit (h : ∀ id, model.Writes first id → ¬model.Mentions second id)
    (hid : ¬model.Writes first id) :
    ((model.visit first).visit second).symbol? id = (model.visit second).symbol? id := by
  have hfirst := Widens.visit model first
  by_cases hmentions : model.Mentions second id
  · have hagrees : model.Agrees (model.visit first) (Node.stmt second).Mentions := by
      refine ⟨fun occurrence _ => hfirst.resolve?_eq occurrence,
        fun occurrence hmentioned target hresolve => ?_⟩
      have hwrites : ¬model.Writes first target := fun hwrites =>
        h target hwrites ⟨occurrence, hmentioned, hresolve⟩
      rw [Model.kindsAt?, symbol?_visit hwrites]
      rfl
    obtain ⟨occurrence, hmentioned, hresolve⟩ := hmentions
    refine (hfirst.trans (.visit _ second)).symbol?_eq (.visit model second) ?_
    refine hagrees.visit.kindsAt? occurrence hmentioned id ?_
    rw [(Widens.visit model second).resolve?_eq, hresolve]
  · have hsecond : ¬model.Writes second id := fun hwrites => hmentions hwrites.mentions
    rw [symbol?_visit (by rwa [hfirst.writes_iff]), symbol?_visit hid, symbol?_visit hsecond]

theorem eq_of_symbol? (hreferences : model.references = other.references)
    (hscopes : model.scopes = other.scopes) (hsymbol : ∀ id, model.symbol? id = other.symbol? id) :
    model = other := by
  obtain ⟨symbols, scopes, references⟩ := model
  obtain ⟨otherSymbols, otherScopes, otherReferences⟩ := other
  obtain rfl : symbols = otherSymbols := Array.ext_getElem? hsymbol
  obtain rfl := hscopes
  obtain rfl := hreferences
  rfl

/-- Visits of two statements commute if neither writes a symbol that the other
mentions.  What a visit makes of the symbols that its statement mentions depends
on their kinds alone, and it leaves all others as they are. -/
theorem visits_commute (model : Model) :
    (∀ first second, (∀ id, model.Writes first id → ¬model.Mentions second id) →
      (∀ id, model.Writes second id → ¬model.Mentions first id) →
        (model.visit first).visit second = (model.visit second).visit first) ∧
      ∀ stmt, (∀ other, model.Agrees other (Node.stmt stmt).Mentions →
          (model.visit stmt).Agrees (other.visit stmt) (Node.stmt stmt).Mentions) ∧
        ∀ id, ¬model.Mentions stmt id → (model.visit stmt).symbol? id = model.symbol? id := by
  refine ⟨fun first second hfirst hsecond => ?_, fun stmt => ⟨fun other h => h.visit, ?_⟩⟩
  · have hleft := (Widens.visit model first).trans (.visit _ second)
    have hright := (Widens.visit model second).trans (.visit _ first)
    refine eq_of_symbol? (hleft.references.trans hright.references.symm)
      (hleft.scopes.trans hright.scopes.symm) fun id => ?_
    by_cases hwrites : model.Writes first id
    · have hother : ¬model.Writes second id := fun h => hfirst id hwrites h.mentions
      rw [symbol?_visit_visit hsecond hother]
      exact symbol?_visit (by rwa [(Widens.visit model first).writes_iff])
    · rw [symbol?_visit_visit hfirst hwrites]
      exact (symbol?_visit (by rwa [(Widens.visit model second).writes_iff])).symm
  · intro id hmentions
    exact symbol?_visit fun h => hmentions h.mentions

/-- The references in two assignments of `c`, to `a` and to `b`. -/
def copiesReferences : References :=
  .ofList [(1, 0), (2, 2), (3, 1), (4, 2)]

/-- A model of `a`, `b` and the number `c`, given the kinds of `b`. -/
def copiesModel (kinds : KindSet) : Model :=
  ⟨#[⟨0, "a", .variable, 4, 0, .empty⟩, ⟨1, "b", .variable, 7, 0, kinds⟩,
      ⟨2, "c", .variable, 10, 0, .singleton .number⟩],
    #[⟨0, .script, none, [("a", 0), ("b", 1), ("c", 2)]⟩], copiesReferences⟩

/-- A statement that assigns `c` to a name. -/
def copyStmt (name : String) (id start : Nat) : Stmt :=
  .expression (.assignment ⟨.assignment, "=", ⟨start + 2, start + 3⟩, false⟩
    (.symbol ⟨name, id⟩ ⟨start, start + 1⟩)
    (.symbol ⟨"c", id + 1⟩ ⟨start + 4, start + 5⟩) ⟨start, start + 5⟩) ⟨start, start + 5⟩

theorem resolve?_copiesModel (kinds : KindSet) :
    (copiesModel kinds).resolve? 1 = some 0 ∧ (copiesModel kinds).resolve? 2 = some 2 ∧
      (copiesModel kinds).resolve? 3 = some 1 ∧ (copiesModel kinds).resolve? 4 = some 2 := by
  change copiesReferences[1]? = some 0 ∧ copiesReferences[2]? = some 2 ∧
    copiesReferences[3]? = some 1 ∧ copiesReferences[4]? = some 2
  decide +kernel

theorem mentions_copyStmt {name : String} {id start occurrence : Nat}
    (h : (Node.stmt (copyStmt name id start)).Mentions occurrence) :
    occurrence = id ∨ occurrence = id + 1 := by
  cases h with
  | write hsite =>
      obtain rfl := List.mem_singleton.mp hsite
      exact .inl rfl
  | read hinside =>
      obtain _ | ⟨hchild, hinside⟩ := hinside
      obtain rfl := List.mem_singleton.mp hchild
      obtain _ | ⟨hchild, hinside⟩ := hinside
      rcases List.mem_pair.mp hchild with rfl | rfl
      · obtain _ | ⟨hchild, -⟩ := hinside
        · exact .inl rfl
        · cases hchild
      · obtain _ | ⟨hchild, -⟩ := hinside
        · exact .inr rfl
        · cases hchild

theorem writes_copyStmt (model : Model) {name : String} {node start : Nat} :
    model.Writes (copyStmt name node start) id ↔ model.resolve? node = some id := by
  simp [Writes, copyStmt, Stmt.writes, Expr.writes, WriteSite.ofValue]

theorem eq_or_eq_of_mentions {name : String} {node start target source : Nat}
    (htarget : model.resolve? node = some target) (hsource : model.resolve? (node + 1) = some source)
    (h : model.Mentions (copyStmt name node start) id) : id = target ∨ id = source := by
  obtain ⟨occurrence, hmentioned, hresolve⟩ := h
  rcases mentions_copyStmt hmentioned with rfl | rfl
  · exact .inl (Option.some.inj (hresolve.symm.trans htarget))
  · exact .inr (Option.some.inj (hresolve.symm.trans hsource))

/-- The statements `a = c` and `b = c` read the same number and may be swapped.
What the first one makes of `a` does not depend on the kinds of `b`. -/
theorem visits_commute_on_copies :
    ∃ (model other : Model) (first second : Stmt),
      (∀ id, model.Writes first id → ¬model.Mentions second id) ∧
      (∀ id, model.Writes second id → ¬model.Mentions first id) ∧
      (model.visit first).visit second = (model.visit second).visit first ∧
      model.Agrees other (Node.stmt first).Mentions ∧ other.kindsAt? 1 ≠ model.kindsAt? 1 ∧
      (model.visit first).Agrees (other.visit first) (Node.stmt first).Mentions ∧
      ¬model.Mentions first 1 ∧ (model.visit first).symbol? 1 = model.symbol? 1 := by
  obtain ⟨hone, htwo, hthree, hfour⟩ := resolve?_copiesModel .empty
  have hfirst : ∀ id, (copiesModel .empty).Writes (copyStmt "a" 1 13) id →
      ¬(copiesModel .empty).Mentions (copyStmt "b" 3 20) id := by
    intro id hwrites hmentions
    rw [writes_copyStmt, hone] at hwrites
    obtain rfl := Option.some.inj hwrites
    rcases eq_or_eq_of_mentions hthree hfour hmentions with h | h <;> cases h
  have hsecond : ∀ id, (copiesModel .empty).Writes (copyStmt "b" 3 20) id →
      ¬(copiesModel .empty).Mentions (copyStmt "a" 1 13) id := by
    intro id hwrites hmentions
    rw [writes_copyStmt, hthree] at hwrites
    obtain rfl := Option.some.inj hwrites
    rcases eq_or_eq_of_mentions hone htwo hmentions with h | h <;> cases h
  have hagrees : (copiesModel .empty).Agrees (copiesModel (.singleton .string))
      (Node.stmt (copyStmt "a" 1 13)).Mentions := by
    refine ⟨fun _ _ => rfl, fun occurrence hmentioned id hresolve => ?_⟩
    rcases eq_or_eq_of_mentions hone htwo ⟨occurrence, hmentioned, hresolve⟩ with rfl | rfl <;> rfl
  have hunmentioned : ¬(copiesModel .empty).Mentions (copyStmt "a" 1 13) 1 := by
    intro hmentions
    rcases eq_or_eq_of_mentions hone htwo hmentions with h | h <;> cases h
  exact ⟨copiesModel .empty, copiesModel (.singleton .string), copyStmt "a" 1 13,
    copyStmt "b" 3 20, hfirst, hsecond, (visits_commute _).1 _ _ hfirst hsecond, hagrees,
    by decide +kernel, ((visits_commute _).2 _).1 _ hagrees, hunmentioned,
    ((visits_commute _).2 _).2 1 hunmentioned⟩

end Commuting

end Model

end ScriptKinds
