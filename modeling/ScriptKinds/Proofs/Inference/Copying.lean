import ScriptKinds.Proofs.Inference.Contribution
import ScriptKinds.Proofs.Inference.Order

namespace ScriptKinds

namespace Model

variable {root : Block} {copy : Effect} {before : List Effect} {name : Identifier} {span : Span}
  {id : SymbolId} {kind : Kind}

theorem contains_kindsOf {model : Model} (hresolve : model.resolve? name.id = some id)
    (hid : (model.symbol? id).isSome) :
    (model.kindsOf name).contains kind ↔ model.Has id kind := by
  obtain ⟨symbol, hsymbol⟩ := Option.isSome_iff_exists.mp hid
  have hfor : model.symbolFor? name.id = some symbol := by
    rw [symbolFor?, hresolve, Option.bind_some, hsymbol]
  simp [kindsOf, hfor, Has, hsymbol]

/-- A copy adds what the sites before it have contributed to the symbol that is
copied. -/
theorem copied_iff (hcopied : copy.site.contribution.copied? = some (name, span))
    (hresolve : (bind root).resolve? name.id = some id) :
    ((bind root).addedBy (before.map Effect.site) copy.site).contains kind ↔
      ∃ earlier write later, before = earlier ++ write :: later ∧
        (bind root).resolve? write.site.target = some id ∧
          ((bind root).addedBy (earlier.map Effect.site) write.site).contains kind := by
  have hwide := Widens.writeAll (bind root) (before.map Effect.site)
  have hid : (((bind root).writeAll (before.map Effect.site)).symbol? id).isSome := by
    rw [hwide.isSome_symbol?]
    exact isSome_symbol?_bind hresolve
  have hadded : (bind root).addedBy (before.map Effect.site) copy.site =
      ((bind root).writeAll (before.map Effect.site)).kindsOf name := by
    rw [addedBy]
    cases hcontribution : copy.site.contribution with
    | kind fixed =>
        rw [hcontribution] at hcopied
        cases hcopied
    | value value =>
        rw [hcontribution] at hcopied
        exact classify_of_copied _ value hcopied
  rw [← hwide.resolve?_eq] at hresolve
  rw [hadded, contains_kindsOf hresolve hid, has_written]
  constructor
  · rintro ⟨sites, site, others, hsplit, htarget, hkind⟩
    obtain ⟨earlier, rest, rfl, rfl, hrest⟩ := List.map_eq_append_iff.mp hsplit
    obtain ⟨write, later, rfl, rfl, rfl⟩ := List.map_eq_cons_iff.mp hrest
    exact ⟨earlier, write, later, rfl, htarget, hkind⟩
  · rintro ⟨earlier, write, later, rfl, htarget, hkind⟩
    exact ⟨earlier.map Effect.site, write.site, later.map Effect.site, by simp, htarget, hkind⟩

end Model

namespace Node

/-- The effects of a node whose parts nest at most to a bound, by recursion on
that bound, so that they can be computed. -/
def effectsWithin : Nat → Node → List Effect
  | 0, _ => []
  | bound + 1, node => node.parts.flatMap fun
      | .write effect => [effect]
      | .inner inner => effectsWithin bound inner

/-- Whether the parts of a node nest at most to a bound. -/
def shallow : Nat → Node → Bool
  | 0, _ => false
  | bound + 1, node => node.parts.all fun
      | .write _ => true
      | .inner inner => shallow bound inner

theorem effectsWithin_eq {bound : Nat} {node : Node} (h : node.shallow bound) :
    node.effectsWithin bound = node.effects := by
  induction bound generalizing node with
  | zero => cases h
  | succ bound ih =>
      rw [effectsWithin, effects_eq]
      refine List.flatMap_congr fun part hpart => ?_
      have hpartShallow := List.all_eq_true.mp h part hpart
      cases part with
      | write effect => rfl
      | inner inner => exact ih hpartShallow

theorem effects_split {bound place : Nat} {node : Node} {effect : Effect}
    (h : node.shallow bound) (hplace : (node.effectsWithin bound)[place]? = some effect) :
    node.effects = (node.effectsWithin bound).take place ++
      effect :: (node.effectsWithin bound).drop (place + 1) := by
  obtain ⟨hlt, rfl⟩ := List.getElem?_eq_some_iff.mp hplace
  rw [← effectsWithin_eq h, List.getElem_cons_drop, List.take_append_drop]

end Node

namespace Script

variable {file source : String} {script : Script}

/-- The script of a source of at most some length. -/
def ofSourceWithin (bound : Nat) (file source : String) : Except Failure Script :=
  match Token.ofSourceWithin bound file source with
  | .ok tokens => ofTokens file tokens
  | .error fault => .error (.fault fault)

theorem ofSourceWithin_eq {bound : Nat} (h : source.toList.length ≤ bound) :
    ofSourceWithin bound file source = ofSource file source := by
  rw [ofSourceWithin, Token.ofSourceWithin_eq h]
  rfl

/-- Whether one of the effects of a script, with those before and behind it,
passes a test. -/
def testEffect (bound place : Nat) (test : Script → List Effect → Effect → List Effect → Bool)
    (script : Script) : Bool :=
  let node := Node.block script.root
  let effects := node.effectsWithin bound
  node.shallow bound &&
    effects[place]?.any fun effect =>
      test script (effects.take place) effect (effects.drop (place + 1))

theorem exists_of_testEffect {bound place : Nat}
    {test : Script → List Effect → Effect → List Effect → Bool}
    (hlength : source.toList.length ≤ bound)
    (h : (ofSourceWithin bound file source).toOption.any (testEffect bound place test)) :
    ∃ script before effect after, ofSource file source = .ok script ∧
      (Node.block script.root).effects = before ++ effect :: after ∧
        test script before effect after := by
  obtain ⟨script, hread, htest⟩ := exists_ok_of_any h
  rw [ofSourceWithin_eq hlength] at hread
  obtain ⟨hshallow, hany⟩ := Bool.and_eq_true_iff.mp htest
  cases hplace : ((Node.block script.root).effectsWithin bound)[place]? with
  | none =>
      rw [hplace] at hany
      cases hany
  | some effect =>
      rw [hplace] at hany
      exact ⟨script, _, effect, _, hread, Node.effects_split hshallow hplace, hany⟩

theorem pairwise_effects (h : ofSource file source = .ok script) :
    (Node.block script.root).effects.Pairwise (Node.block script.root).InOrder := by
  rw [ofSource] at h
  split at h
  · rename_i tokens htokens
    obtain ⟨last, hspelled⟩ := spelled h
    exact hspelled.pairwise_effects (TokenStream.ordered_ofList htokens)
  · cases h

theorem initialized (h : ofSource file source = .ok script) {node : Node}
    (hinside : Node.Inside node (.block script.root)) : node.Initialized := by
  rw [ofSource] at h
  split at h
  · obtain ⟨last, hspelled⟩ := spelled h
    exact hspelled.initialized hinside
  · cases h

/-- The sites of a script take effect in the order of `Node.effects`.  What a
copy adds is what the sites before it in that order have contributed to the
symbol that is copied.  These are the sites that begin in front of the name that
is copied, and no others, except where `Node.Prior` fixes another order or the
default of a nested pattern is hoisted. -/
theorem copies_of_writes (h : ofSource file source = .ok script) :
    script.root.writes = (Node.block script.root).effects.map Effect.site ∧
      (∀ first second, (Node.block script.root).Prior first second →
        [first, second].Sublist (Node.block script.root).effects) ∧
      ∀ before copy after, (Node.block script.root).effects = before ++ copy :: after →
        ∀ name span id, copy.site.contribution.copied? = some (name, span) →
          (Model.bind script.root).resolve? name.id = some id →
            (∀ kind,
              ((Model.bind script.root).addedBy (before.map Effect.site) copy.site).contains kind ↔
                ∃ earlier write later, before = earlier ++ write :: later ∧
                  (Model.bind script.root).resolve? write.site.target = some id ∧
                    ((Model.bind script.root).addedBy (earlier.map Effect.site)
                      write.site).contains kind) ∧
              (∀ write ∈ before, write.start < span.start ∨
                (Node.block script.root).Prior write copy ∨
                  (Node.block script.root).Hoisted write copy) ∧
              ∀ write ∈ after, span.start < write.start ∨
                (Node.block script.root).Prior copy write ∨
                  (Node.block script.root).Hoisted copy write := by
  refine ⟨(Node.site_effects (.block script.root)).symm, ?_, ?_⟩
  · intro first second hprior
    exact hprior.pair_sublist fun node hinside => initialized h hinside
  · intro before copy after hsplit name span id hcopied hresolve
    have hordered := pairwise_effects h
    rw [hsplit] at hordered
    obtain ⟨-, hafter, hbefore⟩ := List.pairwise_append.mp hordered
    refine ⟨fun kind => Model.copied_iff hcopied hresolve, fun write hwrite => ?_,
      fun write hwrite => ?_⟩
    · exact (hbefore write hwrite copy List.mem_cons_self).imp_left fun htext =>
        htext.before name span hcopied
    · exact (List.rel_of_pairwise_cons hafter hwrite).imp_left fun htext =>
        htext.behind name span hcopied

/-- In `var s = 1; var a = s;` what `a` copies is what the first declaration has
contributed to `s`, and that stands in front. -/
theorem copies_of_writes_in_declarations :
    ∃ script before copy after, ofSource "copy.js" "var s = 1; var a = s;" = .ok script ∧
      (Node.block script.root).effects = before ++ copy :: after ∧
        copy.site.contribution.copied? = some (⟨"s", 3⟩, ⟨19, 20⟩) ∧
          (Model.bind script.root).resolve? 3 = some 0 ∧
            (∃ earlier write later, before = earlier ++ write :: later ∧
              (Model.bind script.root).resolve? write.site.target = some 0 ∧
                ((Model.bind script.root).addedBy (earlier.map Effect.site)
                  write.site).contains .number) ∧
            ∀ write ∈ before, write.start < 19 ∨
              (Node.block script.root).Prior write copy ∨
                (Node.block script.root).Hoisted write copy := by
  have hcomputed : (ofSourceWithin 21 "copy.js" "var s = 1; var a = s;").toOption.any
      (testEffect 21 1 fun script before copy _ =>
        decide (copy.site.contribution.copied? = some (⟨"s", 3⟩, ⟨19, 20⟩) ∧
          (Model.bind script.root).resolve? 3 = some 0 ∧
            ((Model.bind script.root).addedBy (before.map Effect.site) copy.site).contains
              .number)) := by
    decide +kernel
  obtain ⟨script, before, copy, after, hread, hsplit, htest⟩ :=
    exists_of_testEffect (by decide +kernel) hcomputed
  obtain ⟨hcopied, hresolve, hkind⟩ := of_decide_eq_true htest
  obtain ⟨hkinds, hbefore, -⟩ :=
    (copies_of_writes hread).2.2 before copy after hsplit ⟨"s", 3⟩ ⟨19, 20⟩ 0 hcopied hresolve
  exact ⟨script, before, copy, after, hread, hsplit, hcopied, hresolve,
    (hkinds .number).mp hkind, hbefore⟩

section Exceptions

/-- A copy in a source adds a kind, though all sites of the symbol that it copies
begin behind the name. -/
def SeesLater (source : String) : Prop :=
  ∃ script before copy after, ofSource "copy.js" source = .ok script ∧
    (Node.block script.root).effects = before ++ copy :: after ∧
      ∃ name span id kind, copy.site.contribution.copied? = some (name, span) ∧
        (Model.bind script.root).resolve? name.id = some id ∧
          ((Model.bind script.root).addedBy (before.map Effect.site) copy.site).contains kind ∧
            ∀ write ∈ (Node.block script.root).effects,
              (Model.bind script.root).resolve? write.site.target = some id →
                span.stop ≤ write.start

/-- A copy in a source does not add a kind that a site of the symbol that it
copies contributes whatever is known by then, though the site begins in front of
the name. -/
def MissesEarlier (source : String) : Prop :=
  ∃ script before copy after, ofSource "copy.js" source = .ok script ∧
    (Node.block script.root).effects = before ++ copy :: after ∧
      ∃ name span id kind, copy.site.contribution.copied? = some (name, span) ∧
        (Model.bind script.root).resolve? name.id = some id ∧
          ((Model.bind script.root).addedBy (before.map Effect.site) copy.site).contains kind =
              false ∧
            ∃ write ∈ (Node.block script.root).effects,
              (Model.bind script.root).resolve? write.site.target = some id ∧
                write.start < span.start ∧
                  (Model.bind script.root).asksFor write.site.contribution = false ∧
                    ((Model.bind script.root).contributed write.site.contribution).contains kind

theorem seesLater_of_computed (bound place : Nat) (name : Identifier) (span : Span) (id : SymbolId)
    (kind : Kind) (hlength : source.toList.length ≤ bound)
    (hcomputed : (ofSourceWithin bound "copy.js" source).toOption.any
      (testEffect bound place fun script before copy after =>
        decide (copy.site.contribution.copied? = some (name, span) ∧
          (Model.bind script.root).resolve? name.id = some id ∧
            ((Model.bind script.root).addedBy (before.map Effect.site) copy.site).contains kind ∧
              ∀ write ∈ before ++ copy :: after,
                (Model.bind script.root).resolve? write.site.target = some id →
                  span.stop ≤ write.start))) : SeesLater source := by
  obtain ⟨script, before, copy, after, hread, hsplit, htest⟩ :=
    exists_of_testEffect hlength hcomputed
  obtain ⟨hcopied, hresolve, hkind, hlater⟩ := of_decide_eq_true htest
  rw [← hsplit] at hlater
  exact ⟨script, before, copy, after, hread, hsplit, name, span, id, kind, hcopied, hresolve,
    hkind, hlater⟩

theorem missesEarlier_of_computed (bound place : Nat) (name : Identifier) (span : Span)
    (id : SymbolId) (kind : Kind) (hlength : source.toList.length ≤ bound)
    (hcomputed : (ofSourceWithin bound "copy.js" source).toOption.any
      (testEffect bound place fun script before copy after =>
        decide (copy.site.contribution.copied? = some (name, span) ∧
          (Model.bind script.root).resolve? name.id = some id ∧
            ((Model.bind script.root).addedBy (before.map Effect.site) copy.site).contains kind =
                false ∧
              ∃ write ∈ before ++ copy :: after,
                (Model.bind script.root).resolve? write.site.target = some id ∧
                  write.start < span.start ∧
                    (Model.bind script.root).asksFor write.site.contribution = false ∧
                      ((Model.bind script.root).contributed
                        write.site.contribution).contains kind))) : MissesEarlier source := by
  obtain ⟨script, before, copy, after, hread, hsplit, htest⟩ :=
    exists_of_testEffect hlength hcomputed
  obtain ⟨hcopied, hresolve, hkind, hearlier⟩ := of_decide_eq_true htest
  rw [← hsplit] at hearlier
  exact ⟨script, before, copy, after, hread, hsplit, name, span, id, kind, hcopied, hresolve,
    hkind, hearlier⟩

/-- Each way in which `Node.Prior` departs from the text shows in a copy: a value
comes before the target behind which it stands and before the name that it is
given to, a default before what is taken apart for its name or collected in it,
and the names of a catch clause before their defaults. -/
theorem copies_out_of_order :
    SeesLater "var s; var \x7ba = s\x7d = (s = 1, \x7b\x7d);" ∧
      MissesEarlier "var s, b; var \x7ba = (s = 1)\x7d = (b = s, \x7b\x7d);" ∧
      MissesEarlier "var y; var x = (y = x, 1);" ∧
      MissesEarlier "var c; var \x7ba = (c = a)\x7d = o;" ∧
      MissesEarlier "function f(...a = a) \x7b\x7d" ∧
      SeesLater "var c; try \x7b\x7d catch (\x7ba = (c = b), b\x7d) \x7b\x7d" := by
  refine ⟨?_, ?_, ?_, ?_, ?_, ?_⟩
  · exact seesLater_of_computed 40 1 ⟨"s", 3⟩ ⟨16, 17⟩ 0 .number (by decide) (by decide +kernel)
  · exact missesEarlier_of_computed 42 0 ⟨"s", 6⟩ ⟨35, 36⟩ 0 .number (by decide)
      (by decide +kernel)
  · exact missesEarlier_of_computed 42 0 ⟨"x", 4⟩ ⟨20, 21⟩ 1 .number (by decide)
      (by decide +kernel)
  · exact missesEarlier_of_computed 42 0 ⟨"a", 4⟩ ⟨21, 22⟩ 1 .unknown (by decide)
      (by decide +kernel)
  · exact missesEarlier_of_computed 42 1 ⟨"a", 3⟩ ⟨18, 19⟩ 1 .array (by decide)
      (by decide +kernel)
  · exact seesLater_of_computed 42 2 ⟨"b", 5⟩ ⟨31, 32⟩ 2 .unknown (by decide) (by decide +kernel)

end Exceptions

end Script

end ScriptKinds
