import ScriptKinds.Proofs.Inference.Location

/-!
The order in which write sites take effect, and the order of the text.

The two agree but for the pairs of sites that `Node.Prior` and `Node.Hoisted`
name.  The sites of a node are those of its parts, and each part stands in a
stretch of tokens of its own, so what has to be looked at is where the order of
the parts is not that of the text.
-/

namespace ScriptKinds

namespace Effect

/-- Two sites in the order of the text, as far as copies can tell.  The first
begins in front of a name that the second copies, and the second behind a name
that the first copies. -/
structure InText (first second : Effect) : Prop where
  before : ∀ name span, second.site.contribution.copied? = some (name, span) →
    first.start < span.start
  behind : ∀ name span, first.site.contribution.copied? = some (name, span) →
    span.start < second.start

/-- A site that begins with a token of a stretch, and so does the name that it
copies. -/
structure Within (tokens : TokenStream) (first last : Nat) (effect : Effect) : Prop where
  starts : tokens.Starts first last effect.start
  copied : ∀ name span, effect.site.contribution.copied? = some (name, span) →
    tokens.Starts first last span.start

variable {tokens : TokenStream} {first middle last : Nat} {effect other : Effect} {kind : Kind}

theorem not_copied_of_kind (h : effect.site.contribution = .kind kind) {name : Identifier}
    {span : Span} : effect.site.contribution.copied? ≠ some (name, span) := by
  rw [h]
  nofun

theorem within_of_kind (h : tokens.Starts first last effect.start)
    (hkind : effect.site.contribution = .kind kind) : effect.Within tokens first last :=
  ⟨h, fun _ _ hcopied => absurd hcopied (not_copied_of_kind hkind)⟩

theorem Within.mono {before after : Nat} (h : effect.Within tokens first last)
    (hbefore : before ≤ first) (hafter : last ≤ after) : effect.Within tokens before after :=
  ⟨h.starts.mono hbefore hafter, fun name span hcopied =>
    (h.copied name span hcopied).mono hbefore hafter⟩

theorem Within.inText (h : effect.Within tokens first middle)
    (h' : other.Within tokens middle last) (hordered : tokens.Ordered) : effect.InText other where
  before name span hcopied := h.starts.lt (h'.copied name span hcopied) hordered
  behind name span hcopied := (h.copied name span hcopied).lt h'.starts hordered

theorem inText_of_kinds {otherKind : Kind} (h : effect.site.contribution = .kind kind)
    (h' : other.site.contribution = .kind otherKind) : effect.InText other where
  before _ _ hcopied := absurd hcopied (not_copied_of_kind h')
  behind _ _ hcopied := absurd hcopied (not_copied_of_kind h)

end Effect

namespace Node

/-- A node in which a value is given to a target. -/
inductive Gives : Node → Node → Node → Prop
  | assignment {operator : Token} {assigned value : Expr} {span : Span} :
      Gives (.expr (.assignment operator assigned value span)) (.expr value) (.expr assigned)
  | parameter {bound : Target} {value : Expr} {rest : Bool} {span : Span} :
      Gives (.parameter ⟨bound, some value, rest, span⟩) (.expr value) (.target bound)
  | element {name : Identifier} {value : Expr} {span : Span} :
      Gives (.element ⟨name, some value, span⟩) (.expr value) (.target (.name name))
  | declarator {bound : Target} {value : Expr} {span : Span} :
      Gives (.declarator ⟨bound, some value, span⟩) (.expr value) (.target bound)
  | forEach {kind? : Option DeclarationKind} {bound : Target} {overValues : Bool}
      {subject : Expr} {body : Stmt} {id : NodeId} {span : Span} :
      Gives (.stmt (.forEach kind? bound overValues subject body id span)) (.expr subject)
        (.target bound)

/-- Two sites of which the first takes effect first, wherever they stand. -/
inductive Prior (root : Node) (first second : Effect) : Prop
  /-- A value comes before what it is given to. -/
  | given {node value bound : Node} (hinside : Inside node root)
      (hgives : node.Gives value bound) (hfirst : first ∈ value.effects)
      (hsecond : second ∈ bound.effects ∨ second ∈ node.sites)
  /-- The default of a name comes before what a pattern takes apart for it. -/
  | taken {node value : Node} {elements : List PatternElement} {nestedDefaults : List Expr}
      {entry : PatternElement} (hinside : Inside node root)
      (hgives : node.Gives value (.target (.pattern elements nestedDefaults)))
      (hentry : entry ∈ elements) (hfirst : first ∈ (element entry).effects)
      (hsecond : second = entry.taken) (hsite : second ∈ node.sites)
  /-- The default of a parameter comes before the array of a rest parameter. -/
  | rest {outer : Parameter} (hinside : Inside (parameter outer) root)
      (hboth : [first, second].Sublist (parameterSites outer))
  /-- The names that a catch clause binds come before the defaults among them. -/
  | caught {bound : Target} {body : Block} {span : Span}
      (hinside : Inside (handler ⟨some bound, body, span⟩) root)
      (hfirst : first ∈ (handler ⟨some bound, body, span⟩).sites)
      (hsecond : second ∈ (target bound).effects)

/-- A site in the default of a nested pattern, which takes effect ahead of a
site that begins in front of it, in another entry of the pattern around it. -/
inductive Hoisted (root : Node) (first second : Effect) : Prop
  | nested {elements : List PatternElement} {nestedDefaults : List Expr} {value : Expr}
      {entry : PatternElement}
      (hinside : Inside (.target (.pattern elements nestedDefaults)) root)
      (hvalue : value ∈ nestedDefaults) (hentry : entry ∈ elements)
      (hfirst : first ∈ (expr value).effects)
      (hsecond : second ∈ (element entry).effects ∨ second = entry.taken)
      (hstart : second.start < first.start)

/-- Two sites that take effect in the order of the text, or with a reason not to. -/
def InOrder (root : Node) (first second : Effect) : Prop :=
  first.InText second ∨ root.Prior first second ∨ root.Hoisted first second

variable {node root value bound : Node} {first second : Effect}

theorem InOrder.outer (h : node.InOrder first second) (hnode : Inside node root) :
    root.InOrder first second := by
  rcases h with htext | hprior | ⟨hinside, hvalue, hentry, hfirst, hsecond, hstart⟩
  · exact .inl htext
  · refine .inr (.inl ?_)
    cases hprior with
    | given hinside hgives hfirst hsecond =>
        exact .given (hinside.trans hnode) hgives hfirst hsecond
    | taken hinside hgives hentry hfirst hsecond hsite =>
        exact .taken (hinside.trans hnode) hgives hentry hfirst hsecond hsite
    | rest hinside hboth => exact .rest (hinside.trans hnode) hboth
    | caught hinside hfirst hsecond => exact .caught (hinside.trans hnode) hfirst hsecond
  · exact .inr (.inr (.nested (hinside.trans hnode) hvalue hentry hfirst hsecond hstart))

theorem InOrder.given (h : node.Gives value bound) (hfirst : first ∈ value.effects)
    (hsecond : second ∈ bound.effects ∨ second ∈ node.sites) : node.InOrder first second :=
  .inr (.inl (.given (.self node) h hfirst hsecond))

section Sublist

theorem flatMap_effects_write (sites : List Effect) :
    (sites.map Part.write).flatMap Part.effects = sites := by
  rw [List.flatMap_map]
  exact List.flatMap_singleton' sites

theorem sublist_effects_targetParts (named : Identifier → Effect) (bound : Target) :
    (target bound).effects.Sublist ((targetParts named bound).flatMap Part.effects) := by
  rw [effects_eq]
  exact (patternParts_sublist named bound).flatMap Part.effects

theorem sublist_valueSites_targetParts (named : Identifier → Effect) (bound : Target) :
    (bound.valueSites named).Sublist ((targetParts named bound).flatMap Part.effects) := by
  rw [← flatMap_effects_write (bound.valueSites named)]
  refine List.Sublist.flatMap ?_ Part.effects
  cases bound with
  | name bound => exact List.Sublist.refl _
  | pattern elements nestedDefaults =>
      refine List.Sublist.trans ?_ (List.sublist_append_right _ _)
      induction elements with
      | nil => exact List.nil_sublist _
      | cons entry others ih => exact (ih.cons_cons _).cons _

theorem Gives.parts_eq (h : node.Gives value bound) :
    ∃ others, node.parts = .inner value :: others ∧
      bound.effects.Sublist (others.flatMap Part.effects) ∧
        node.sites.Sublist (others.flatMap Part.effects) := by
  have hlast (sites : List Effect) :
      bound.effects.Sublist ((.inner bound :: sites.map Part.write).flatMap Part.effects) ∧
        sites.Sublist ((.inner bound :: sites.map Part.write).flatMap Part.effects) := by
    rw [List.flatMap_cons, flatMap_effects_write]
    exact ⟨List.sublist_append_left _ _, List.sublist_append_right _ _⟩
  have htaken (named : Identifier → Effect) (bound : Target) (others : List Part) :
      (target bound).effects.Sublist
          ((targetParts named bound ++ others).flatMap Part.effects) ∧
        (bound.valueSites named).Sublist
          ((targetParts named bound ++ others).flatMap Part.effects) := by
    rw [List.flatMap_append]
    exact ⟨(sublist_effects_targetParts named bound).trans (List.sublist_append_left _ _),
      (sublist_valueSites_targetParts named bound).trans (List.sublist_append_left _ _)⟩
  cases h with
  | assignment => exact ⟨_, rfl, hlast _⟩
  | parameter => exact ⟨_, rfl, hlast _⟩
  | element =>
      refine ⟨_, rfl, ?_, List.Sublist.refl _⟩
      rw [effects_eq]
      exact List.nil_sublist _
  | @declarator bound value span =>
      have hsites : (Node.declarator ⟨bound, some value, span⟩).sites =
          bound.valueSites fun name => ⟨.ofValue value name, span.start⟩ :=
        List.flatMap_singleton _ _
      rw [hsites]
      exact ⟨_, rfl, htaken _ bound []⟩
  | @forEach kind? bound overValues subject body id span => exact ⟨_, rfl, htaken _ bound _⟩

theorem pair_sublist_append {sites others : List Effect} (hfirst : first ∈ sites)
    (hsecond : second ∈ others) : [first, second].Sublist (sites ++ others) :=
  (List.singleton_sublist.mpr hfirst).append (List.singleton_sublist.mpr hsecond)

theorem Gives.pair_sublist (h : node.Gives value bound) (hfirst : first ∈ value.effects)
    (hsecond : second ∈ bound.effects ∨ second ∈ node.sites) :
    [first, second].Sublist node.effects := by
  obtain ⟨others, hparts, hbound, hsites⟩ := h.parts_eq
  rw [effects_eq, hparts, List.flatMap_cons]
  exact pair_sublist_append hfirst (hsecond.elim (hbound.subset ·) (hsites.subset ·))

/-- In a node that takes a value apart, the sites of an entry come before what is
taken for its name. -/
theorem Gives.pair_sublist_taken {elements : List PatternElement} {nestedDefaults : List Expr}
    {entry : PatternElement} (h : node.Gives value (.target (.pattern elements nestedDefaults)))
    (hentry : entry ∈ elements) (hfirst : first ∈ (Node.element entry).effects)
    (hsite : entry.taken ∈ node.sites) : [first, entry.taken].Sublist node.effects := by
  obtain ⟨named, hparts⟩ : ∃ named,
      (targetParts named (.pattern elements nestedDefaults)).Sublist node.parts := by
    cases h with
    | parameter => cases hsite
    | declarator => exact ⟨_, (List.sublist_append_left _ []).cons _⟩
    | forEach => exact ⟨_, (List.sublist_append_left _ _).cons _⟩
  have hpair : ([entry].flatMap fun entry =>
      [Part.inner (.element entry), .write entry.taken]).Sublist
        (targetParts named (.pattern elements nestedDefaults)) :=
    ((List.singleton_sublist.mpr hentry).flatMap _).trans (List.sublist_append_right _ _)
  refine List.Sublist.trans ?_ (sublist_effects_of_parts (hpair.trans hparts))
  exact pair_sublist_append hfirst List.mem_cons_self

theorem Prior.pair_sublist (h : root.Prior first second)
    (hinitialized : ∀ node, Inside node root → node.Initialized) :
    [first, second].Sublist root.effects := by
  have houter {node : Node} (hinside : Inside node root)
      (hnode : [first, second].Sublist node.effects) : [first, second].Sublist root.effects :=
    hnode.trans (sublist_effects_of_inside hinside hinitialized)
  cases h with
  | given hinside hgives hfirst hsecond =>
      exact houter hinside (hgives.pair_sublist hfirst hsecond)
  | taken hinside hgives hentry hfirst hsecond hsite =>
      subst hsecond
      exact houter hinside (hgives.pair_sublist_taken hentry hfirst hsite)
  | @rest outer hinside hboth =>
      refine houter hinside (hboth.trans ?_)
      rw [effects_eq, ← flatMap_effects_write (parameterSites outer)]
      refine List.Sublist.flatMap ?_ Part.effects
      exact (List.sublist_cons_self _ _).trans (List.sublist_append_right _ _)
  | @caught bound body span hinside hfirst hsecond =>
      refine houter hinside ?_
      rw [effects_eq, parts, List.flatMap_append, flatMap_effects_write]
      refine pair_sublist_append hfirst ?_
      rw [children, Option.toList_some, List.map_singleton, List.singleton_append, List.map_cons,
        List.flatMap_cons]
      exact List.mem_append_left _ hsecond

end Sublist

/-- All sites of one part of a node are in order with those of another one. -/
def PartsInOrder (node : Node) (part other : Part) : Prop :=
  ∀ first ∈ part.effects, ∀ second ∈ other.effects, node.InOrder first second

/-- What takes effect as a target is given a value lies in the target, or gives
it that value. -/
theorem mem_effects_of_targetParts {named : Identifier → Effect} {bound : Target} {part : Part}
    (hpart : part ∈ targetParts named bound) (hsecond : second ∈ part.effects) :
    second ∈ (target bound).effects ∨ second ∈ bound.valueSites named := by
  cases part with
  | write site =>
      obtain rfl := List.mem_singleton.mp hsecond
      exact .inr (mem_targetParts.mp hpart)
  | inner inner =>
      refine .inl (mem_effects.mpr (.inr ⟨inner, ?_, hsecond⟩))
      cases bound with
      | name bound => simp [targetParts] at hpart
      | pattern elements nestedDefaults =>
          simp [targetParts] at hpart
          rcases hpart with ⟨value, hvalue, rfl⟩ | ⟨entry, hentry, rfl⟩ <;>
            simp_all [parts, patternParts]

theorem pairwise_received (hgives : node.Gives value bound)
    (h : (Part.inner bound :: node.sites.map .write).Pairwise node.PartsInOrder) :
    (.inner value :: .inner bound :: node.sites.map Part.write).Pairwise node.PartsInOrder := by
  refine List.pairwise_cons.mpr ⟨?_, h⟩
  intro part hpart write hwrite copy hcopy
  refine .given hgives hwrite ?_
  rcases List.mem_cons.mp hpart with rfl | hsite
  · exact .inl hcopy
  · obtain ⟨site, hmem, rfl⟩ := List.mem_map.mp hsite
    rw [List.mem_singleton.mp hcopy]
    exact .inr hmem

theorem pairwise_assignment {operator : Token} {assigned value : Expr} {span : Span} :
    (Node.expr (.assignment operator assigned value span)).parts.Pairwise
      (Node.expr (.assignment operator assigned value span)).PartsInOrder := by
  apply pairwise_received .assignment
  cases assigned with
  | symbol name nameSpan =>
      refine List.pairwise_pair.mpr ?_
      intro write hwrite
      simp [Part.effects, effects_eq, parts, exprParts, exprSites,
        Expr.children] at hwrite
  | _ => exact List.pairwise_singleton _ _

theorem pairwise_parameter (outer : Parameter) :
    (Node.parameter outer).parts.Pairwise (Node.parameter outer).PartsInOrder := by
  have hrest : (Part.inner (.target outer.target) ::
      (parameterSites outer).map .write).Pairwise (Node.parameter outer).PartsInOrder := by
    refine List.pairwise_cons.mpr ⟨?_, List.pairwise_map.mpr ?_⟩
    · intro part hpart write hwrite
      obtain ⟨bound, default?, rest, span⟩ := outer
      cases bound with
      | name bound => simp [Part.effects, effects_eq, parts, patternParts] at hwrite
      | pattern elements nestedDefaults => cases hpart
    · refine List.pairwise_iff_forall_sublist.mpr ?_
      intro site other hboth write hwrite copy hcopy
      obtain rfl := List.mem_singleton.mp hwrite
      obtain rfl := List.mem_singleton.mp hcopy
      exact .inr (.inl (.rest (.self _) hboth))
  obtain ⟨bound, default?, rest, span⟩ := outer
  cases default? with
  | none => exact hrest
  | some value => exact pairwise_received .parameter hrest

theorem pairwise_element (outer : PatternElement) :
    (Node.element outer).parts.Pairwise (Node.element outer).PartsInOrder := by
  obtain ⟨name, default?, span⟩ := outer
  cases default? with
  | none => exact .nil
  | some value =>
      refine List.pairwise_pair.mpr ?_
      intro write hwrite copy hcopy
      exact .given .element hwrite (.inr hcopy)

end Node

namespace Spelled

open Node (Part PartsInOrder)

variable {tokens : TokenStream} {first middle last : Nat} {item otherItem : Item}
  {items : List Item} {node inner other value : Node} {effect : Effect}

/-- Two things that are spelled one behind the other. -/
def Apart (tokens : TokenStream) (first last : Nat) (item other : Item) : Prop :=
  ∃ middle, Spelled tokens first middle [item] ∧ Spelled tokens middle last [other]

theorem pairwise_apart (h : Spelled tokens first last items) :
    items.Pairwise (Apart tokens first last) := by
  induction items generalizing first with
  | nil => exact .nil
  | cons item others ih =>
      have hparts : Spelled tokens first last ([item] ++ others) := h
      obtain ⟨middle, hitem, hothers⟩ := hparts.split
      refine List.pairwise_cons.mpr ⟨?_, (ih hothers).imp ?_⟩
      · intro other hother
        exact ⟨middle, hitem, hothers.of_mem hother⟩
      · rintro _ _ ⟨next, hfirst, hsecond⟩
        exact ⟨next, hfirst.mono hitem.le (Nat.le_refl _), hsecond⟩

theorem apart_or_apart (h : Spelled tokens first last items) (hitem : item ∈ items)
    (hother : otherItem ∈ items) (hne : otherItem ≠ item) :
    Apart tokens first last item otherItem ∨ Apart tokens first last otherItem item := by
  obtain ⟨before, after, rfl⟩ := List.append_of_mem hitem
  obtain ⟨-, hafter, hbefore⟩ := List.pairwise_append.mp h.pairwise_apart
  rcases List.mem_append.mp hother with hmem | hmem
  · exact .inr (hbefore otherItem hmem item List.mem_cons_self)
  · exact .inl (List.rel_of_pairwise_cons hafter (List.mem_of_ne_of_mem hne hmem))

section Ordered

variable (hordered : tokens.Ordered)

include hordered

theorem within_effect (h : Spelled tokens first last [.node node])
    (heffect : effect ∈ node.effects) : effect.Within tokens first last :=
  ⟨h.starts_effect hordered.ends heffect, fun _ _ hcopied =>
    h.starts_copied hordered.ends heffect hcopied⟩

theorem within_entry {entry : PatternElement}
    (h : Spelled tokens first last [.node (.element entry)])
    (heffect : effect ∈ (Node.element entry).effects ∨ effect = entry.taken) :
    effect.Within tokens first last := by
  rcases heffect with heffect | rfl
  · exact within_effect hordered h heffect
  · exact Effect.within_of_kind (h.starts_node hordered.ends fun _ hled => hled) rfl

theorem partsInOrder_of_apart (h : Apart tokens first last (.node inner) (.node other)) :
    node.PartsInOrder (.inner inner) (.inner other) := by
  intro write hwrite copy hcopy
  obtain ⟨middle, hinner, hother⟩ := h
  exact .inl ((within_effect hordered hinner hwrite).inText (within_effect hordered hother hcopy)
    hordered)

theorem pairwise_children {leads : List Item} {children : List Node}
    (h : Spelled tokens first last (leads ++ children.map .node)) :
    (children.map Part.inner).Pairwise node.PartsInOrder := by
  have hapart := List.pairwise_map.mp h.right.pairwise_apart
  exact List.pairwise_map.mpr (hapart.imp fun hnodes => partsInOrder_of_apart hordered hnodes)

theorem pairwise_plain {leads : List Item}
    (h : Spelled tokens first last (leads ++ node.children.map .node))
    (hkind : ∀ site ∈ node.sites, ∃ kind, site.site.contribution = .kind kind)
    (hfront : ∀ site ∈ node.sites, ∀ child ∈ node.children, ∀ copy ∈ child.effects,
      node.InOrder site copy) :
    (node.sites.map Part.write ++ node.children.map Part.inner).Pairwise node.PartsInOrder := by
  refine List.pairwise_append.mpr ⟨?_, pairwise_children hordered h, ?_⟩
  · refine List.pairwise_map.mpr (List.pairwise_of_forall_mem_list ?_)
    intro site hsite other hother write hwrite copy hcopy
    obtain rfl := List.mem_singleton.mp hwrite
    obtain rfl := List.mem_singleton.mp hcopy
    obtain ⟨kind, hcontribution⟩ := hkind write hsite
    obtain ⟨otherKind, hother⟩ := hkind copy hother
    exact .inl (Effect.inText_of_kinds hcontribution hother)
  · simp only [List.mem_map]
    rintro _ ⟨site, hsite, rfl⟩ _ ⟨child, hchild, rfl⟩ write hwrite copy hcopy
    obtain rfl := List.mem_singleton.mp hwrite
    exact hfront _ hsite child hchild copy hcopy

theorem pairwise_led {leads : List Item} {span : Span} {site : Effect} {kind : Kind}
    (h : Spelled tokens first last (leads ++ node.children.map .node))
    (hled : Node.LedByWord span leads) (hsites : node.sites = [site])
    (hkind : site.site.contribution = .kind kind) (hstart : site.start = span.start) :
    (node.sites.map Part.write ++ node.children.map Part.inner).Pairwise node.PartsInOrder := by
  obtain ⟨next, hstarts, hchildren⟩ := h.starts_ledByWord hordered.ends hled
  rw [← hstart] at hstarts
  have hwrite := Effect.within_of_kind hstarts hkind
  apply pairwise_plain hordered h
  all_goals
    intro other hother
    rw [hsites] at hother
    obtain rfl := List.mem_singleton.mp hother
  · exact ⟨kind, hkind⟩
  · intro child hchild copy hcopy
    have hnode := hchildren.of_mem (List.mem_map_of_mem hchild)
    exact .inl (hwrite.inText (within_effect hordered hnode hcopy) hordered)

theorem pairwise_siteless {leads : List Item}
    (h : Spelled tokens first last (leads ++ node.children.map .node)) (hsites : node.sites = []) :
    (node.sites.map Part.write ++ node.children.map Part.inner).Pairwise node.PartsInOrder := by
  rw [hsites]
  exact pairwise_children hordered h

section Pattern

variable {elements : List PatternElement} {nestedDefaults : List Expr}
  {entryParts : PatternElement → List Part}

/-- The parts of a pattern are in order, though the defaults of nested patterns
come first, if those of each entry are. -/
theorem pairwise_pattern
    (h : Spelled tokens first last [.node (.target (.pattern elements nestedDefaults))])
    (hinside : Node.Inside (.target (.pattern elements nestedDefaults)) node)
    (hparts : ∀ entry, entryParts entry ⊆ [.inner (.element entry), .write entry.taken])
    (hentries : ∀ entry ∈ elements, (entryParts entry).Pairwise node.PartsInOrder) :
    (nestedDefaults.map (fun value => Part.inner (.expr value)) ++
      elements.flatMap entryParts).Pairwise node.PartsInOrder := by
  have heffect {entry : PatternElement} {part : Part} {effect : Effect}
      (hpart : part ∈ entryParts entry) (heffect : effect ∈ part.effects) :
      effect ∈ (Node.element entry).effects ∨ effect = entry.taken := by
    obtain rfl | rfl := List.mem_pair.mp (hparts entry hpart)
    · exact .inl heffect
    · exact .inr (List.mem_singleton.mp heffect)
  obtain ⟨_, kids, rfl, hcomposed, _, hkids⟩ := h.parts_of_node
  have hapart := hkids.pairwise_apart
  refine List.pairwise_append.mpr ⟨?_, List.pairwise_flatMap.mpr ⟨hentries, ?_⟩, ?_⟩
  · rw [List.pairwise_map, ← hcomposed.2, List.pairwise_filterMap]
    refine hapart.imp ?_
    intro item other hitems value hvalue later hlater
    obtain rfl := Item.eq_of_expr? hvalue
    obtain rfl := Item.eq_of_expr? hlater
    exact partsInOrder_of_apart hordered hitems
  · rw [← hcomposed.1, List.pairwise_filterMap]
    refine hapart.imp ?_
    intro item other hitems entry hentry later hlater part hpart otherPart hother
    obtain rfl := Item.eq_of_element? hentry
    obtain rfl := Item.eq_of_element? hlater
    intro write hwrite copy hcopy
    obtain ⟨middle, hfront, hback⟩ := hitems
    have hwritten := within_entry hordered hfront (heffect hpart hwrite)
    exact .inl (hwritten.inText (within_entry hordered hback (heffect hother hcopy)) hordered)
  -- The tree does not keep whether a nested default stands behind an element.
  · intro part hpart other hother write hwrite copy hcopy
    obtain ⟨value, hvalue, rfl⟩ := List.mem_map.mp hpart
    obtain ⟨entry, hentry, hmem⟩ := List.mem_flatMap.mp hother
    have hsecond := heffect hmem hcopy
    have hkid (child : Node)
        (hchild : child ∈ (Node.target (.pattern elements nestedDefaults)).children) :
        .node child ∈ kids := mem_of_composed hcomposed hchild
    have hvalueKid := hkid (.expr value) (List.mem_append_right _ (List.mem_map_of_mem hvalue))
    have hentryKid := hkid (.element entry) (List.mem_append_left _ (List.mem_map_of_mem hentry))
    rcases hkids.apart_or_apart hvalueKid hentryKid nofun with
      ⟨middle, hfront, hback⟩ | ⟨middle, hfront, hback⟩
    · have hwritten := within_effect hordered hfront hwrite
      exact .inl (hwritten.inText (within_entry hordered hback hsecond) hordered)
    · have hstart := (within_entry hordered hfront hsecond).starts.lt
        (within_effect hordered hback hwrite).starts hordered
      exact .inr (.inr (.nested hinside hvalue hentry hwrite hsecond hstart))

end Pattern

theorem pairwise_given {named : Identifier → Effect} {bound : Target}
    (h : Spelled tokens first last [.node (.target bound)])
    (hinside : Node.Inside (.target bound) node) (hgives : node.Gives value (.target bound))
    (hsites : node.sites = bound.valueSites named) :
    (.inner value :: Node.targetParts named bound).Pairwise node.PartsInOrder := by
  refine List.pairwise_cons.mpr ⟨?_, ?_⟩
  · intro part hpart write hwrite copy hcopy
    refine .given hgives hwrite ?_
    rw [hsites]
    exact Node.mem_effects_of_targetParts hpart hcopy
  · cases bound with
    | name bound => exact List.pairwise_singleton _ _
    | pattern elements nestedDefaults =>
        apply pairwise_pattern hordered h hinside fun _ => List.Subset.refl _
        intro entry hentry
        refine List.pairwise_pair.mpr ?_
        intro write hwrite copy hcopy
        obtain rfl := List.mem_singleton.mp hcopy
        have hsite : entry.taken ∈ node.sites := by
          rw [hsites]
          exact List.mem_map_of_mem hentry
        exact .inr (.inl (.taken (.self node) hgives hentry hwrite rfl hsite))

theorem pairwise_declarator {outer : Declarator}
    (h : Spelled tokens first last [.node (.declarator outer)]) :
    (Node.declarator outer).parts.Pairwise (Node.declarator outer).PartsInOrder := by
  obtain ⟨bound, value?, span⟩ := outer
  cases value? with
  | none => exact .nil
  | some value =>
      have hbound := inside (.child List.mem_cons_self) h
      rw [Node.parts, Option.toList_some, List.flatMap_singleton]
      apply pairwise_given hordered hbound (.child List.mem_cons_self) .declarator
      exact List.flatMap_singleton _ _

theorem within_valueSites {named : Identifier → Effect} {bound : Target}
    (h : Spelled tokens first last [.node (.target bound)])
    (hnamed : ∀ name, (named name).Within tokens first last)
    (hsite : effect ∈ bound.valueSites named) : effect.Within tokens first last := by
  cases bound with
  | name bound =>
      obtain rfl := List.mem_singleton.mp hsite
      exact hnamed bound
  | pattern elements nestedDefaults =>
      obtain ⟨entry, hentry, rfl⟩ := List.mem_map.mp hsite
      exact Effect.within_of_kind (h.starts_element hordered.ends hentry) rfl

theorem within_targetParts {named : Identifier → Effect} {bound : Target} {part : Part}
    (h : Spelled tokens first last [.node (.target bound)])
    (hnamed : ∀ name, (named name).Within tokens first last)
    (hpart : part ∈ Node.targetParts named bound) (heffect : effect ∈ part.effects) :
    effect.Within tokens first last := by
  rcases Node.mem_effects_of_targetParts hpart heffect with hinner | hsite
  · exact within_effect hordered h hinner
  · exact within_valueSites hordered h hnamed hsite

theorem pairwise_forEach {kind? : Option DeclarationKind} {bound : Target} {overValues : Bool}
    {subject : Expr} {body : Stmt} {id : NodeId} {span : Span}
    (h : Spelled tokens first last
      [.node (.stmt (.forEach kind? bound overValues subject body id span))]) :
    (Node.stmt (.forEach kind? bound overValues subject body id span)).parts.Pairwise
      (Node.stmt (.forEach kind? bound overValues subject body id span)).PartsInOrder := by
  obtain ⟨_, _, hled, rfl, _, hkids⟩ := h.parts_of_node
  obtain ⟨next, hstarts, hkids⟩ := hkids.starts_ledByWord hordered.ends hled
  obtain ⟨hbound, hsubject⟩ := List.pairwise_cons.mp hkids.pairwise_apart
  obtain ⟨middle, htarget, hbody⟩ := hbound _ (List.mem_cons_of_mem _ List.mem_cons_self)
  have hwhole := htarget.mono hstarts.le (Nat.le_refl _)
  refine List.pairwise_append.mpr ⟨?_, List.pairwise_singleton _ _, ?_⟩
  -- The subject stands behind the target, but comes before it as its value.
  · exact pairwise_given hordered htarget (.child List.mem_cons_self) .forEach rfl
  · intro part hpart other hother
    obtain rfl := List.mem_singleton.mp hother
    rcases List.mem_cons.mp hpart with rfl | hpart
    · exact partsInOrder_of_apart hordered (List.pairwise_pair.mp hsubject)
    · intro write hwrite copy hcopy
      have hwritten : write.Within tokens first middle := by
        apply within_targetParts hordered hwhole _ hpart hwrite
        intro name
        exact Effect.within_of_kind (hstarts.mono (Nat.le_refl _) htarget.le) rfl
      exact .inl (hwritten.inText (within_effect hordered hbody hcopy) hordered)

theorem pairwise_handler {outer : CatchClause}
    (h : Spelled tokens first last [.node (.handler outer)]) :
    (Node.handler outer).parts.Pairwise (Node.handler outer).PartsInOrder := by
  obtain ⟨bound?, body, span⟩ := outer
  obtain ⟨_, _, hled, rfl, _, hkids⟩ := h.parts_of_node
  cases bound? with
  | none => exact List.pairwise_singleton _ _
  | some bound =>
      obtain ⟨next, hstarts, hchildren⟩ := hkids.starts_ledByWord hordered.ends hled
      obtain ⟨middle, htarget, hbody⟩ := List.pairwise_pair.mp hchildren.pairwise_apart
      have hwhole := htarget.mono hstarts.le (Nat.le_refl _)
      have hsites : (Node.handler ⟨some bound, body, span⟩).sites =
          bound.valueSites fun name => ⟨.ofKind .unknown name, span.start⟩ :=
        List.flatMap_singleton _ _
      have hkind (site : Effect) (hsite : site ∈ (Node.handler ⟨some bound, body, span⟩).sites) :
          ∃ kind, site.site.contribution = .kind kind := by
        rw [hsites] at hsite
        cases hcontribution : site.site.contribution with
        | kind kind => exact ⟨kind, rfl⟩
        | value value =>
            obtain ⟨name, hname⟩ := Node.named_of_valueSites hsite hcontribution
            cases hname
      apply pairwise_plain hordered hkids hkind
      intro write hwrite child hchild copy hcopy
      obtain rfl | rfl := List.mem_pair.mp hchild
      · exact .inr (.inl (.caught (.self _) hwrite hcopy))
      · have hwritten : write.Within tokens first middle := by
          rw [hsites] at hwrite
          refine within_valueSites hordered hwhole (fun name => ?_) hwrite
          exact Effect.within_of_kind (hstarts.mono (Nat.le_refl _) htarget.le) rfl
        exact .inl (hwritten.inText (within_effect hordered hbody hcopy) hordered)

theorem pairwise_parts (h : Spelled tokens first last [.node node]) :
    node.parts.Pairwise node.PartsInOrder := by
  obtain ⟨leads, kids, hled, hcomposed, _, hkids⟩ := h.parts_of_node
  cases node with
  | expr outer =>
      obtain rfl := hcomposed
      cases outer with
      | assignment operator assigned value span => exact Node.pairwise_assignment
      | update operator operand leading span =>
          cases operand with
          | symbol name nameSpan =>
              apply pairwise_plain hordered hkids
              · intro copy hcopy
                obtain rfl := List.mem_singleton.mp hcopy
                exact ⟨.number, rfl⟩
              · intro write _ child hchild copy hcopy
                obtain rfl := List.mem_singleton.mp hchild
                simp [Node.effects_eq, Node.parts, Node.exprParts, Node.exprSites,
                  Expr.children] at hcopy
          | _ => exact pairwise_siteless hordered hkids rfl
      | function name? _ _ _ span | classDef name? _ _ span =>
          cases name? with
          | none => exact pairwise_siteless hordered hkids rfl
          | some name => exact pairwise_led hordered hkids hled rfl rfl rfl
      | _ => exact pairwise_siteless hordered hkids rfl
  | stmt outer =>
      obtain rfl := hcomposed
      cases outer with
      | forEach kind? bound overValues subject body id span => exact pairwise_forEach hordered h
      | function name _ _ span | classDef name _ _ span =>
          exact pairwise_led hordered hkids hled rfl rfl rfl
      | _ => exact pairwise_siteless hordered hkids rfl
  | target outer =>
      cases outer with
      | name bound => exact .nil
      | pattern elements nestedDefaults =>
          have hmap : elements.map (fun entry => Part.inner (.element entry)) =
              elements.flatMap fun entry => [Part.inner (.element entry)] := List.map_eq_flatMap
          rw [Node.parts, Node.patternParts, hmap]
          apply pairwise_pattern hordered h (.self _)
          · exact fun _ => List.cons_subset_cons _ (List.nil_subset _)
          · exact fun _ _ => List.pairwise_singleton _ _
  | binding outer =>
      obtain rfl := hcomposed
      exact pairwise_led hordered hkids hled rfl rfl rfl
  | parameter outer => exact Node.pairwise_parameter outer
  | element outer => exact Node.pairwise_element outer
  | declarator outer => exact pairwise_declarator hordered h
  | handler outer => exact pairwise_handler hordered h
  | property outer | member outer | block outer | clause outer =>
      obtain rfl := hcomposed
      exact pairwise_siteless hordered hkids rfl

/-- Of any two sites in a node the first to take effect is in order with the
second. -/
theorem pairwise_effects (h : Spelled tokens first last [.node node]) :
    node.effects.Pairwise node.InOrder := by
  -- Along the parts, because the effects of a target are listed without the target.
  induction node using Node.induct with
  | step node ih =>
      rw [Node.effects_eq]
      refine List.pairwise_flatMap.mpr ⟨?_, pairwise_parts hordered h⟩
      intro part hpart
      cases part with
      | write site => exact List.pairwise_singleton _ _
      | inner inner =>
          obtain ⟨child, hchild, hdeeper⟩ := Node.child_of_mem_parts hpart
          have hinside := Node.Inside.deeper hchild hdeeper
          exact (ih inner hpart (inside hinside h)).imp fun horder => horder.outer hinside

end Ordered

end Spelled

end ScriptKinds
