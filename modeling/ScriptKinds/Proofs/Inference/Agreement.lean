import ScriptKinds.Proofs.Inference.Widening
import ScriptKinds.Proofs.Scope.Resolution

namespace ScriptKinds

/-- Every reference belongs to an occurrence of a name and leads to a symbol of
that name.  Every declaration has one, and so has every write, except to
`undefined` where it is not declared. -/
structure Model.NamesAgree (model : Model) (root : Block) : Prop where
  key : ∀ node, (model.resolve? node).isSome → ∃ name, .name name ∈ root.numbered ∧ name.id = node
  named : ∀ name, .name name ∈ root.numbered → ∀ id, model.resolve? name.id = some id →
    ∃ symbol, model.symbol? id = some symbol ∧ symbol.name = name.name
  declared : ∀ site ∈ scriptSites root, site.role.declares →
    (model.resolve? site.name.id).isSome
  /-- At a write without a reference, `undefined` is not declared in any scope that is
  open at that moment.  A misplaced declaration is made only when the walk comes to
  it, which may be later, so the finished tables know none for the write only if none
  is misplaced. -/
  written : ∀ site ∈ scriptSites root, site.role = .write →
    (model.resolve? site.name.id).isSome ∨
      Ignored Binding.start (scriptActions root) site ∧
        (Placed (scriptSites root) "undefined" → site.lookup? model = none)

theorem mem_namesOf {name : Identifier} {nodes : List Numbered} :
    name ∈ namesOf nodes ↔ .name name ∈ nodes := by
  rw [namesOf, List.mem_filterMap]
  constructor
  · rintro ⟨node, hmem, hname⟩
    cases node with
    | name occurrence =>
        cases hname
        exact hmem
    | construct id => cases hname
  · intro hmem
    exact ⟨.name name, hmem, rfl⟩

theorem mem_numbered {name : Identifier} {root : Block} :
    .name name ∈ root.numbered ↔ ∃ site ∈ scriptSites root, site.name = name := by
  rw [← mem_namesOf, ← names_scriptSites, List.mem_map]

section Bind

variable {file : String} {tokens : List Token} {script : Script}

theorem namesAgree_bind (h : Script.ofTokens file tokens = .ok script) :
    (Model.bind script.root).NamesAgree script.root where
  key node hnode := by
    obtain ⟨id, hresolve⟩ := Option.isSome_iff_exists.mp hnode
    obtain ⟨site, hsite, hid, _⟩ := recorded_bind hresolve
    exact ⟨site.name, mem_numbered.mpr ⟨site, hsite, rfl⟩, hid⟩
  named name hname id hresolve := by
    obtain ⟨site, hsite, rfl⟩ := mem_numbered.mp hname
    obtain ⟨symbol, hsymbol, hsymbolName, _⟩ := (standsFor_bind h hsite hresolve).1
    exact ⟨symbol, hsymbol, hsymbolName⟩
  declared site hsite hrole := declared_bind hsite hrole
  written site hsite hrole := by
    rcases written_bind hsite hrole with hresolved | ⟨hignored, hmeans⟩
    · exact .inl hresolved
    · refine .inr ⟨hignored, ?_⟩
      intro hplaced
      apply hmeans
      · simp [hrole, Role.declares]
      · rw [hignored.1]
        exact hplaced

end Bind

section Widening

variable {model wide : Model} {root : Block}

theorem Model.Widens.lookup?_eq (h : model.Widens wide) (site : Site) :
    site.lookup? wide = site.lookup? model := by
  have hvisible : OpenScope.visible? wide site.name.name =
      OpenScope.visible? model site.name.name := by
    funext scope
    rw [OpenScope.visible?, OpenScope.visible?, Model.symbolIn?, Model.symbolIn?, h.scope?_eq]
  rw [Site.lookup?, Site.lookup?, hvisible]

theorem Model.NamesAgree.widened (h : model.NamesAgree root) (hwide : model.Widens wide) :
    wide.NamesAgree root where
  key node hnode := by
    rw [hwide.resolve?_eq] at hnode
    exact h.key node hnode
  named name hname id hresolve := by
    rw [hwide.resolve?_eq] at hresolve
    obtain ⟨symbol, hsymbol, hsymbolName⟩ := h.named name hname id hresolve
    obtain ⟨kinds, hkinds⟩ := hwide.symbol id
    rw [hsymbol] at hkinds
    exact ⟨_, hkinds, hsymbolName⟩
  declared site hsite hrole := by
    rw [hwide.resolve?_eq]
    exact h.declared site hsite hrole
  written site hsite hrole := by
    rw [hwide.resolve?_eq, hwide.lookup?_eq]
    exact h.written site hsite hrole

end Widening

namespace Script

variable {file : String} {tokens : List Token} {script : Script}

/-- Binding makes references that agree with the names in a script, and
inference keeps them. -/
theorem names_agree (h : ofTokens file tokens = .ok script) :
    (Model.bind script.root).NamesAgree script.root ∧
      (Model.ofScript script.root).NamesAgree script.root := by
  have hbind := namesAgree_bind h
  exact ⟨hbind, hbind.widened (.ofScript script.root)⟩

/-- In `undefined = x => x` the parameter has a symbol, and the write does not. -/
theorem names_agree_in_write_to_undefined :
    ∃ script, ofTokens "arrow.js"
        [⟨.identifier, "undefined", ⟨0, 9⟩, false⟩, ⟨.assignment, "=", ⟨10, 11⟩, false⟩,
          ⟨.identifier, "x", ⟨12, 13⟩, false⟩, ⟨.arrow, "=>", ⟨14, 16⟩, false⟩,
          ⟨.identifier, "x", ⟨17, 18⟩, false⟩] = .ok script ∧
      (Model.ofScript script.root).resolve? 1 = none ∧
      ∃ symbol, (Model.ofScript script.root).symbol? 0 = some symbol ∧ symbol.name = "x" := by
  obtain ⟨script, hread, hname, hresolve, hwritten⟩ : ∃ script, ofTokens "arrow.js"
      [⟨.identifier, "undefined", ⟨0, 9⟩, false⟩, ⟨.assignment, "=", ⟨10, 11⟩, false⟩,
        ⟨.identifier, "x", ⟨12, 13⟩, false⟩, ⟨.arrow, "=>", ⟨14, 16⟩, false⟩,
        ⟨.identifier, "x", ⟨17, 18⟩, false⟩] = .ok script ∧
      .name ⟨"x", 3⟩ ∈ script.root.numbered ∧
      (Model.bind script.root).resolve? 3 = some 0 ∧
      (Model.bind script.root).resolve? 1 = none := by
    refine ⟨_, rfl, ?_⟩
    decide
  have hwide := Model.Widens.ofScript script.root
  rw [← hwide.resolve?_eq] at hresolve hwritten
  exact ⟨script, hread, hwritten, (names_agree hread).2.named _ hname 0 hresolve⟩

end Script

end ScriptKinds
