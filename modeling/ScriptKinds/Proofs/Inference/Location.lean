import ScriptKinds.Proofs.Grammar.Spelling
import ScriptKinds.Proofs.Inference.Effect
import ScriptKinds.Proofs.Token.Layout

namespace ScriptKinds

/-- The identifier that an expression is, perhaps after assigning it. -/
def Expr.copied? : Expr → Option (Identifier × Span)
  | .symbol name span => some (name, span)
  | .assignment operator _ value _ =>
      if operator.kind = .assignment then value.copied? else none
  | _ => none

/-- The identifier whose kinds are contributed, if they are those of one. -/
def Contribution.copied? : Contribution → Option (Identifier × Span)
  | .kind _ => none
  | .value given => given.copied?

theorem classify_of_copied (model : Model) (expr : Expr) {name : Identifier} {span : Span}
    (h : expr.copied? = some (name, span)) : classify model expr = model.kindsOf name := by
  fun_induction Expr.copied? expr with
  | case1 =>
      cases h
      rw [classify]
  | case2 operator target value whole hkind ih =>
      rw [classify, if_pos hkind]
      exact ih h
  | case3 => cases h
  | case4 => cases h

namespace TokenStream

/-- An offset at which one of the tokens of a stretch begins. -/
def Starts (tokens : TokenStream) (first last offset : Nat) : Prop :=
  ∃ place, first ≤ place ∧ place < last ∧ place < tokens.body.size ∧
    (tokens.get place).span.start = offset

variable {tokens : TokenStream} {first middle last offset other : Nat}

theorem Starts.mono {before after : Nat} (h : tokens.Starts first last offset)
    (hbefore : before ≤ first) (hafter : last ≤ after) : tokens.Starts before after offset := by
  obtain ⟨place, hfirst, hlast, hsize, hoffset⟩ := h
  exact ⟨place, by omega, by omega, hsize, hoffset⟩

theorem Starts.le (h : tokens.Starts first last offset) : first ≤ last := by
  obtain ⟨place, hfirst, hlast, _⟩ := h
  omega

theorem Starts.lt (h : tokens.Starts first middle offset) (h' : tokens.Starts middle last other)
    (hordered : tokens.Ordered) : offset < other := by
  obtain ⟨place, _, hmiddle, _, rfl⟩ := h
  obtain ⟨later, hlater, _, hsize, rfl⟩ := h'
  exact hordered.precedes place later (by omega) hsize

end TokenStream

namespace Spelled

variable {tokens : TokenStream} {first last : Nat} {leads kids others : List Item} {node : Node}
  {span : Span} {effect : Effect}

section Starts

variable (hends : tokens.last.kind = .endOfInput)

include hends

theorem starts_word {word : Token} (h : Spelled tokens first last (.token word :: others))
    (hword : word.kind ≠ .endOfInput) :
    ∃ next, tokens.Starts first next word.span.start ∧ Spelled tokens next last others := by
  cases h with
  | token hfirst hnext hstrict hothers =>
      exact ⟨_, ⟨_, hfirst, hstrict hword, TokenStream.lt_size hends hword, rfl⟩, hothers⟩

theorem starts_ledByWord (h : Spelled tokens first last (leads ++ kids))
    (hled : Node.LedByWord span leads) :
    ∃ next, tokens.Starts first next span.start ∧ Spelled tokens next last kids := by
  obtain ⟨word, rfl, hkind, hstart⟩ := hled
  rw [← hstart]
  exact h.starts_word hends hkind

theorem starts_node (h : Spelled tokens first last [.node node])
    (hled : ∀ leads, node.LedBy leads → Node.LedByWord span leads) :
    tokens.Starts first last span.start := by
  obtain ⟨leads, kids, hleads, _, _, hkids⟩ := h.parts_of_node
  obtain ⟨next, hstarts, hothers⟩ := hkids.starts_ledByWord hends (hled leads hleads)
  exact hstarts.mono (Nat.le_refl _) hothers.le

theorem starts_ledByAhead {name : Identifier}
    (h : Spelled tokens first last (leads ++ .node (.target (.name name)) :: kids))
    (hled : Node.LedByAhead span leads) : tokens.Starts first last span.start := by
  obtain ⟨token, rfl, hstart⟩ := hled
  rw [← hstart]
  cases h with
  | @ahead _ place _ _ hfirst hothers =>
      have hparts : Spelled tokens place last ([.node (.target (.name name))] ++ kids) := hothers
      obtain ⟨middle, hname, hkids⟩ := hparts.split
      obtain ⟨_, _, ⟨word, rfl, hkind⟩, _, _, hword⟩ := hname.parts_of_node
      obtain ⟨next, ⟨later, hplace, hnext, hsize, _⟩, hrest⟩ := hword.starts_word hends hkind
      have hmiddle := hrest.le
      have hlast := hkids.le
      exact ⟨place, hfirst, by omega, by omega, rfl⟩

theorem starts_element {elements : List PatternElement} {nestedDefaults : List Expr}
    (h : Spelled tokens first last [.node (.target (.pattern elements nestedDefaults))])
    {entry : PatternElement} (hentry : entry ∈ elements) :
    tokens.Starts first last entry.span.start := by
  have hchild : Node.element entry ∈ (Node.target (.pattern elements nestedDefaults)).children := by
    simp [Node.children, Target.children, hentry]
  exact (inside (.child hchild) h).starts_node hends fun _ hled => hled

theorem starts_valueSites {named : Identifier → Effect} {bound : Target}
    (h : Spelled tokens first last [.node (.target bound)])
    (hnamed : ∀ name, bound = .name name → tokens.Starts first last (named name).start)
    (heffect : effect ∈ bound.valueSites named) : tokens.Starts first last effect.start := by
  cases bound with
  | name bound =>
      obtain rfl := List.mem_singleton.mp heffect
      exact hnamed bound rfl
  | pattern elements nestedDefaults =>
      obtain ⟨entry, hentry, rfl⟩ := List.mem_map.mp heffect
      exact h.starts_element hends hentry

theorem starts_site (h : Spelled tokens first last [.node node]) (heffect : effect ∈ node.sites) :
    tokens.Starts first last effect.start := by
  cases node with
  | expr outer =>
      cases outer with
      | assignment operator target given span =>
          cases target <;> simp [Node.sites, Node.exprSites] at heffect
          subst heffect
          have hname := inside (.child List.mem_cons_self) h
          exact hname.starts_node hends fun _ hled => hled
      | update operator operand leading span =>
          cases operand <;> simp [Node.sites, Node.exprSites] at heffect
          subst heffect
          have hname := inside (.child List.mem_cons_self) h
          exact hname.starts_node hends fun _ hled => hled
      | function name? _ _ _ _ | classDef name? _ _ _ =>
          cases name? with
          | none => cases heffect
          | some name =>
              obtain rfl := List.mem_singleton.mp heffect
              exact h.starts_node hends fun _ hled => hled
      | _ => cases heffect
  | stmt outer =>
      cases outer with
      | function | classDef =>
          obtain rfl := List.mem_singleton.mp heffect
          exact h.starts_node hends fun _ hled => hled
      | forEach kind? bound overValues subject body id span =>
          have hbound := inside (.child List.mem_cons_self) h
          exact hbound.starts_valueSites hends
            (fun _ _ => h.starts_node hends fun _ hled => hled) heffect
      | _ => cases heffect
  | parameter outer =>
      obtain ⟨bound, default?, rest, span⟩ := outer
      cases bound with
      | pattern => cases heffect
      | name bound =>
          have hstart : effect.start = span.start := by
            simp only [Node.sites, Node.parameterSites, List.mem_append, List.mem_map] at heffect
            rcases heffect with ⟨_, _, rfl⟩ | hrest
            · rfl
            · split at hrest
              · obtain rfl := List.mem_singleton.mp hrest
                rfl
              · cases hrest
          rw [hstart]
          obtain ⟨_, _, hled, rfl, _, hkids⟩ := h.parts_of_node
          exact hkids.starts_ledByAhead hends hled
  | element outer =>
      simp only [Node.sites, List.mem_map] at heffect
      obtain ⟨_, _, rfl⟩ := heffect
      exact h.starts_node hends fun _ hled => hled
  | binding outer =>
      obtain rfl := List.mem_singleton.mp heffect
      exact h.starts_node hends fun _ hled => hled
  | declarator outer =>
      obtain ⟨bound, value?, span⟩ := outer
      simp only [Node.sites, List.mem_flatMap] at heffect
      obtain ⟨_, _, hmem⟩ := heffect
      have hbound := inside (.child List.mem_cons_self) h
      refine hbound.starts_valueSites hends ?_ hmem
      rintro name rfl
      obtain ⟨_, _, hled, rfl, _, hkids⟩ := h.parts_of_node
      exact hkids.starts_ledByAhead hends hled
  | handler outer =>
      obtain ⟨bound?, body, span⟩ := outer
      simp only [Node.sites, List.mem_flatMap, Option.mem_toList] at heffect
      obtain ⟨bound, rfl, hmem⟩ := heffect
      have hbound := inside (.child List.mem_cons_self) h
      exact hbound.starts_valueSites hends
        (fun _ _ => h.starts_node hends fun _ hled => hled) hmem
  | property | target | member | block | clause => cases heffect

theorem starts_copied_expr (expr : Expr) {name : Identifier} {nameSpan : Span}
    (h : Spelled tokens first last [.node (.expr expr)])
    (hcopied : expr.copied? = some (name, nameSpan)) :
    tokens.Starts first last nameSpan.start := by
  fun_induction Expr.copied? expr with
  | case1 =>
      cases hcopied
      exact h.starts_node hends fun _ hled => hled
  | case2 operator target value whole hkind ih =>
      exact ih (inside (.child (List.mem_cons_of_mem _ List.mem_cons_self)) h) hcopied
  | case3 => cases hcopied
  | case4 => cases hcopied

theorem starts_effect (h : Spelled tokens first last [.node node])
    (heffect : effect ∈ node.effects) : tokens.Starts first last effect.start := by
  obtain ⟨inner, hinside, hsite⟩ := Node.site_of_mem_effects heffect
  exact (inside hinside h).starts_site hends hsite

theorem starts_copied (h : Spelled tokens first last [.node node])
    (heffect : effect ∈ node.effects) {name : Identifier} {nameSpan : Span}
    (hcopied : effect.site.contribution.copied? = some (name, nameSpan)) :
    tokens.Starts first last nameSpan.start := by
  obtain ⟨inner, hinside, hsite⟩ := Node.site_of_mem_effects heffect
  cases hcontribution : effect.site.contribution with
  | kind kind =>
      rw [hcontribution] at hcopied
      cases hcopied
  | value value =>
      rw [hcontribution] at hcopied
      have hvalue := (Node.inside_of_sites hsite hcontribution).trans hinside
      exact starts_copied_expr hends value (inside hvalue h) hcopied

end Starts

end Spelled

end ScriptKinds
