import ScriptKinds.Inference.Basic

namespace ScriptKinds

namespace KindSet

@[simp] theorem union_empty (set : KindSet) : set.union empty = set := by
  simp [union, empty]

theorem union_assoc (set other third : KindSet) :
    (set.union other).union third = set.union (other.union third) := by
  simp [union, BitVec.or_assoc]

end KindSet

/-- A model with the same symbols, scopes and references, in which symbols may
have more kinds. -/
structure Model.Widens (model wide : Model) : Prop where
  references : wide.references = model.references
  scopes : wide.scopes = model.scopes
  symbol : ∀ id, ∃ kinds, wide.symbol? id = (model.symbol? id).map fun symbol =>
    { symbol with kinds := symbol.kinds.union kinds }

namespace Model.Widens

variable {model wide wider : Model}

theorem refl (model : Model) : Widens model model where
  references := rfl
  scopes := rfl
  symbol id := by
    refine ⟨.empty, ?_⟩
    simp

theorem trans (h : Widens model wide) (h' : Widens wide wider) : Widens model wider where
  references := h'.references.trans h.references
  scopes := h'.scopes.trans h.scopes
  symbol id := by
    obtain ⟨kinds, hwide⟩ := h.symbol id
    obtain ⟨more, hwider⟩ := h'.symbol id
    refine ⟨kinds.union more, ?_⟩
    rw [hwider, hwide, Option.map_map]
    congr 1
    funext symbol
    simp [KindSet.union_assoc]

theorem widen (model : Model) (node : NodeId) (kinds : KindSet) :
    Widens model (model.widen node kinds) := by
  unfold Model.widen
  split
  · rename_i target hresolve
    refine ⟨rfl, rfl, ?_⟩
    intro id
    by_cases htarget : target = id
    · refine ⟨kinds, ?_⟩
      simp [Model.symbol?, Array.getElem?_modify, htarget]
    · refine ⟨.empty, ?_⟩
      simp [Model.symbol?, Array.getElem?_modify, htarget]
  · exact refl model

theorem writeAll (model : Model) (sites : List WriteSite) :
    Widens model (model.writeAll sites) := by
  induction sites generalizing model with
  | nil => exact refl model
  | cons site others ih => exact (widen model site.target _).trans (ih (model.write site))

theorem ofScript (root : Block) : Widens (bind root) (ofScript root) :=
  writeAll (bind root) root.writes

theorem resolve?_eq (h : Widens model wide) (node : NodeId) :
    wide.resolve? node = model.resolve? node := by
  unfold resolve?
  rw [h.references]

theorem scope?_eq (h : Widens model wide) (id : ScopeId) : wide.scope? id = model.scope? id := by
  unfold scope?
  rw [h.scopes]

end Model.Widens

end ScriptKinds
