import ScriptKinds.Proofs.Inference.Effect
import ScriptKinds.Proofs.Inference.Widening

namespace ScriptKinds

namespace Model

/-- Lets the write sites of a node take effect. -/
def visitNode (model : Model) (node : Node) : Model :=
  model.writeAll node.writes

@[simp] theorem visitNode_stmt (model : Model) (stmt : Stmt) :
    model.visitNode (.stmt stmt) = model.visit stmt := rfl

def visitNodes (model : Model) (nodes : List Node) : Model :=
  nodes.foldl visitNode model

theorem Widens.visitNodes (model : Model) (nodes : List Node) :
    Widens model (model.visitNodes nodes) := by
  induction nodes generalizing model with
  | nil => exact refl model
  | cons node others ih => exact (writeAll model node.writes).trans (ih (model.visitNode node))

theorem Widens.write (model : Model) (site : WriteSite) : Widens model (model.write site) :=
  .widen model site.target _

theorem Widens.size_symbols {model wide : Model} (h : Widens model wide) :
    wide.symbols.size = model.symbols.size := by
  have hnone (id : Nat) : wide.symbols.size ≤ id ↔ model.symbols.size ≤ id := by
    obtain ⟨kinds, hkinds⟩ := h.symbol id
    rw [← Array.getElem?_eq_none_iff, ← Array.getElem?_eq_none_iff]
    change wide.symbol? id = none ↔ model.symbol? id = none
    rw [hkinds, Option.map_eq_none_iff]
  have hwide := hnone wide.symbols.size
  have hmodel := hnone model.symbols.size
  omega

theorem symbol?_write {model : Model} {site : WriteSite} {id : SymbolId}
    (h : model.resolve? site.target ≠ some id) :
    (model.write site).symbol? id = model.symbol? id := by
  unfold write widen
  split
  · rename_i target htarget
    have hne : target ≠ id := by
      rintro rfl
      exact h htarget
    simp [symbol?, Array.getElem?_modify, hne]
  · rfl

theorem symbol?_writeAll {model : Model} {sites : List WriteSite} {id : SymbolId}
    (h : ∀ site ∈ sites, model.resolve? site.target ≠ some id) :
    (model.writeAll sites).symbol? id = model.symbol? id := by
  induction sites generalizing model with
  | nil => rfl
  | cons site others ih =>
      have hothers : ∀ other ∈ others, (model.write site).resolve? other.target ≠ some id := by
        intro other hother
        rw [(Widens.write model site).resolve?_eq]
        exact h other (List.mem_cons_of_mem _ hother)
      exact (ih hothers).trans (symbol?_write (h site List.mem_cons_self))

theorem site_of_symbol?_visitNode {model : Model} {node : Node} {id : SymbolId}
    (h : (model.visitNode node).symbol? id ≠ model.symbol? id) :
    ∃ inner, Node.Inside inner node ∧
      ∃ effect ∈ inner.sites, model.resolve? effect.site.target = some id := by
  by_contra hnone
  apply h
  apply symbol?_writeAll
  rw [← Node.site_effects]
  intro site hsite hresolve
  obtain ⟨effect, heffect, rfl⟩ := List.mem_map.mp hsite
  obtain ⟨inner, hinside, hinner⟩ := Node.site_of_mem_effects heffect
  exact hnone ⟨inner, hinside, effect, hinner, hresolve⟩

/-- However a model is visited, no symbol loses a kind and nothing but kinds
changes.  A single visit changes the kinds of symbols only that are written
inside its node. -/
theorem visits_widen (model : Model) (nodes : List Node) :
    Widens model (model.visitNodes nodes) ∧
      (model.visitNodes nodes).symbols.size = model.symbols.size ∧
      ∀ node id, (model.visitNode node).symbol? id ≠ model.symbol? id →
        ∃ inner, Node.Inside inner node ∧
          ∃ effect ∈ inner.sites, model.resolve? effect.site.target = some id := by
  have hwide := Widens.visitNodes model nodes
  refine ⟨hwide, hwide.size_symbols, ?_⟩
  intro node id hchanged
  exact site_of_symbol?_visitNode hchanged

end Model

end ScriptKinds
