import ScriptKinds.Proofs.Inference.Widening
import ScriptKinds.Proofs.Scope.Position
import ScriptKinds.Proofs.Scope.Resolution

namespace ScriptKinds

/-- All symbols are declared at byte offsets with a property. -/
def Model.DeclaredAt (P : Nat → Prop) (model : Model) : Prop :=
  ∀ id symbol, model.symbol? id = some symbol → P symbol.declaration

variable {P : Nat → Prop}

namespace Binding

variable {binding later : Binding}

theorem declaredAt_declareIn (h : binding.model.DeclaredAt P) (scope : ScopeId)
    {declaration : Declaration} (hposition : P declaration.position) :
    (binding.declareIn scope declaration).model.DeclaredAt P := by
  unfold declareIn
  split
  · exact h
  · intro id symbol hsymbol
    change (binding.addSymbol scope declaration).model.symbol? id = some symbol at hsymbol
    rw [symbol?_addSymbol] at hsymbol
    split at hsymbol
    · cases hsymbol
      exact hposition
    · exact h id symbol hsymbol

theorem Step.declaredAt {action : Action} (h : Step binding action later)
    (hbinding : binding.model.DeclaredAt P)
    (hposition : ∀ position, action.position? = some position → P position) :
    later.model.DeclaredAt P := by
  cases h with
  | declare | ensure | implicit => exact declaredAt_declareIn hbinding _ (hposition _ rfl)
  | enter | leave | ensured | read | postpone | write | ignore => exact hbinding

theorem declaredAt_run (h : binding.model.DeclaredAt P) {actions : List Action}
    (hpositions : ∀ position ∈ positionsOf actions, P position) :
    (binding.run actions).model.DeclaredAt P := by
  induction actions generalizing binding with
  | nil => exact h
  | cons action others ih =>
      rw [positionsOf_cons, List.forall_mem_append] at hpositions
      have hstep := binding.step_cases action
      refine ih (hstep.declaredAt h fun position hposition => ?_) hpositions.2
      exact hpositions.1 position (Option.mem_toList.mpr hposition)

end Binding

namespace Model

variable {root : Block}

theorem declaredAt_bind (h : ∀ position ∈ (Node.block root).positions, P position) :
    (bind root).DeclaredAt P := by
  have hstart : Binding.start.model.DeclaredAt P := nofun
  have hrun : (Binding.start.run (scriptActions root)).model.DeclaredAt P :=
    Binding.declaredAt_run hstart (by rwa [positionsOf_script])
  have hsymbols : (bind root).symbols = (Binding.start.run (scriptActions root)).model.symbols :=
    (Binding.tables_retries _).1
  intro id symbol hsymbol
  rw [symbol?, hsymbols] at hsymbol
  exact hrun id symbol hsymbol

/-- A symbol of a script is declared at the mark of some node. -/
theorem declaredAt_ofScript (h : ∀ position ∈ (Node.block root).positions, P position) :
    (ofScript root).DeclaredAt P := by
  intro id symbol hsymbol
  obtain ⟨kinds, hwide⟩ := (Widens.ofScript root).symbol id
  rw [hsymbol] at hwide
  obtain ⟨bound, hbound, rfl⟩ := Option.map_eq_some_iff.mp hwide.symm
  exact declaredAt_bind h id bound hbound

end Model

end ScriptKinds
