import ScriptKinds.Proofs.Scope.Resolution

namespace ScriptKinds

/-- Whether a declaration takes place when the function or script around it is
entered. -/
def Declaration.Hoists (declaration : Declaration) (place : Place) : Prop :=
  place = .boundary ∨ declaration.kind = .imported

/-- Every declaration that belongs to a function or script is known by the time
when it is repeated. -/
def Prepared (known : List Declaration) (actions : List Action) : Prop :=
  ∀ before place declaration after, actions = before ++ .ensure place declaration :: after →
    declaration.Hoists place → declaration ∈ known ∨ .declare declaration ∈ before

namespace Prepared

variable {known declarations : List Declaration} {actions others : List Action}

theorem of_known (h : ∀ place declaration, .ensure place declaration ∈ actions →
    declaration.Hoists place → declaration ∈ known) : Prepared known actions := by
  rintro before place declaration after rfl hhoists
  exact .inl (h place declaration (by simp) hhoists)

theorem append (h : Prepared known actions)
    (hdeclares : ∀ declaration ∈ declarations, .declare declaration ∈ actions)
    (h' : Prepared (declarations ++ known) others) : Prepared known (actions ++ others) := by
  intro before place declaration after hsplit hhoists
  have hknown (hmem : declaration ∈ declarations ++ known) :
      declaration ∈ known ∨ .declare declaration ∈ actions := by
    rcases List.mem_append.mp hmem with hnew | hold
    · exact .inr (hdeclares declaration hnew)
    · exact .inl hold
  rcases List.append_eq_append_iff.mp hsplit with ⟨inner, rfl, hothers⟩ | ⟨inner, rfl, hrest⟩
  · rcases h' inner place declaration after hothers hhoists with hmem | hinner
    · exact (hknown hmem).imp_right (List.mem_append_left _)
    · exact .inr (List.mem_append_right _ hinner)
  · -- The repetition is in the first part, unless the second one starts with it.
    cases inner with
    | nil =>
        rcases h' [] place declaration after hrest.symm hhoists with hmem | hinner
        · simpa using hknown hmem
        · cases hinner
    | cons first inner =>
        obtain ⟨rfl, _⟩ := List.cons.inj hrest
        exact h before place declaration inner rfl hhoists

theorem join (h : Prepared known actions) (h' : Prepared known others) :
    Prepared known (actions ++ others) := by
  have hnone : ∀ declaration ∈ ([] : List Declaration), .declare declaration ∈ actions := by simp
  exact h.append hnone h'

theorem entering (h : Prepared (declarations ++ known) actions) :
    Prepared known (declareAll declarations ++ actions) := by
  have hfirst : Prepared known (declareAll declarations) := by
    apply of_known
    simp [declareAll]
  apply hfirst.append _ h
  intro declaration hmem
  exact List.mem_map_of_mem hmem

theorem within {kind : ScopeKind} (h : Prepared known actions) :
    Prepared known (within kind actions) := by
  have henter : Prepared known [.enter kind] := of_known (by simp)
  have hleave : Prepared known [.leave] := of_known (by simp)
  exact (henter.join h).join hleave

end Prepared

variable {known : List Declaration} {scopes : List OpenScope} {next : ScopeId}
variable {actions : List Action} {sites : List Site} {binding : Binding}

/-- On a walk every declaration that belongs to a function or script has been
carried out before it is repeated. -/
theorem Walk.prepared (h : Walk known scopes next actions sites) : Prepared known actions := by
  induction h with
  | nil => exact .of_known (by simp)
  | append hfirst hsecond ihfirst ihsecond => exact ihfirst.join ihsecond
  | read hopen => exact .of_known (by simp)
  | write hopen => exact .of_known (by simp)
  | declared hopen hknown hrole => exact .of_known (by simp)
  | ensured hknown =>
      apply Prepared.of_known
      intro place declaration hmem _
      obtain ⟨rfl, rfl⟩ := Action.ensure.inj (List.mem_singleton.mp hmem)
      exact hknown
  | misplaced hopen himplicit himported =>
      apply Prepared.of_known
      intro place declaration hmem hhoists
      obtain ⟨rfl, rfl⟩ := Action.ensure.inj (List.mem_singleton.mp hmem)
      rcases hhoists with hplace | hkind
      · cases hplace
      · exact absurd hkind himported
  | block houtermost hinner hcovers hinside ih => exact ih.entering.within
  | function hopen hparameters hcovers hdefaults hinside ihdefaults ihinside =>
      apply Prepared.within
      rw [List.append_assoc]
      exact ihdefaults.entering.join ihinside.entering

theorem Binding.isSome_resolve?_run {declaration : Declaration}
    (h : .declare declaration ∈ actions) :
    ((binding.run actions).model.resolve? declaration.name.id).isSome := by
  obtain ⟨before, after, rfl⟩ := List.append_of_mem h
  rw [run_append]
  apply (extends_run after).resolved
  change ((declareIn _ _ _).model.resolve? _).isSome
  rw [resolve?_declareIn, if_pos rfl]
  rfl

theorem prepared_script (root : Block) {before after : List Action} {place : Place}
    {declaration : Declaration}
    (hsplit : scriptActions root = before ++ .ensure place declaration :: after)
    (hhoists : declaration.Hoists place) :
    .declare declaration ∈ before ∧
      (Binding.start.run before).step (.ensure place declaration) = Binding.start.run before := by
  have hdeclared : .declare declaration ∈ before := by
    have hprepared := (walk_script root).prepared
    rcases hprepared before place declaration after hsplit hhoists with hmem | hmem
    · cases hmem
    · exact hmem
  exact ⟨hdeclared, Binding.ensure_eq (Binding.isSome_resolve?_run hdeclared)⟩

namespace Script

variable {file : String} {tokens : List Token} {script : Script}

/-- Every name in a script is one of the occurrences listed.  A declaration
stands for a symbol of its name in the scope to which it belongs: with `var`,
of functions and of imports that of the function or script around it, otherwise
the innermost one.  The former take effect when their function or script is
entered, and nothing is left to do when their statement is reached. -/
theorem home_of_declaration (h : ofTokens file tokens = .ok script) :
    (scriptSites script.root).map Site.name = namesOf script.root.numbered ∧
      (∀ site ∈ scriptSites script.root, site.role.declares →
        site.Enclosed (Model.bind script.root) ∧
          ∃ symbol, (Model.bind script.root).symbolFor? site.name.id = some symbol ∧
            symbol.name = site.name.name ∧ site.home? = some symbol.scope) ∧
      ∀ before place declaration after,
        scriptActions script.root = before ++ .ensure place declaration :: after →
          declaration.Hoists place →
            .declare declaration ∈ before ∧
              (Binding.start.run before).step (.ensure place declaration) =
                Binding.start.run before := by
  refine ⟨names_scriptSites script.root, ?_, ?_⟩
  · intro site hsite hrole
    refine ⟨enclosed_bind hsite, ?_⟩
    obtain ⟨id, hresolve⟩ := Option.isSome_iff_exists.mp (declared_bind hsite hrole)
    obtain ⟨symbol, hsymbol, hname, hhome⟩ := (standsFor_bind h hsite hresolve).1
    refine ⟨symbol, ?_, hname, hhome hrole⟩
    rw [Model.symbolFor?, hresolve, Option.bind_some, hsymbol]
  · intro before place declaration after
    exact prepared_script script.root

/-- A variable declared in a block belongs to the script around the block. -/
theorem home_of_variable_in_block :
    ∃ script, ofTokens "block.js"
        [⟨.openCurly, "\x7b", ⟨0, 1⟩, false⟩, ⟨.varWord, "var", ⟨2, 5⟩, false⟩,
          ⟨.identifier, "v", ⟨6, 7⟩, false⟩, ⟨.closeCurly, "\x7d", ⟨8, 9⟩, false⟩] = .ok script ∧
      ∃ symbol, (Model.bind script.root).symbolFor? 1 = some symbol ∧ symbol.name = "v" ∧
        symbol.scope = 0 := by
  let site : Site := ⟨⟨"v", 1⟩, .hoisted, [⟨1, .block, none⟩, ⟨0, .script, none⟩]⟩
  obtain ⟨script, hread, hsite⟩ : ∃ script, ofTokens "block.js"
      [⟨.openCurly, "\x7b", ⟨0, 1⟩, false⟩, ⟨.varWord, "var", ⟨2, 5⟩, false⟩,
        ⟨.identifier, "v", ⟨6, 7⟩, false⟩, ⟨.closeCurly, "\x7d", ⟨8, 9⟩, false⟩] = .ok script ∧
      site ∈ scriptSites script.root := by
    refine ⟨_, rfl, ?_⟩
    decide
  obtain ⟨_, symbol, hsymbol, hname, hhome⟩ := (home_of_declaration hread).2.1 site hsite rfl
  exact ⟨script, hread, symbol, hsymbol, hname, (Option.some.inj hhome).symm⟩

end Script

end ScriptKinds
