import Mathlib.Data.List.Basic
import Mathlib.Data.List.Flatten
import ScriptKinds.Inference.Basic
import ScriptKinds.Proofs.Tree.Node

/-!
The write sites of a tree, node by node.

`Node.sites` says which write sites a node itself is, wherever they stand in
the order of effects, and `Node.parts` in which order a node's own sites and
the nodes in it take effect.  Unfolding the parts of a node to the leaves
lists the write sites of the tree again, now with the offsets at which they
begin.
-/

namespace ScriptKinds

/-- A write site and the byte offset at which it begins.  The name that a loop
or a catch clause binds has no span of its own, and begins with the whole. -/
structure Effect where
  site : WriteSite
  start : Nat

/-- A name in a pattern that takes something unknown apart. -/
def PatternElement.taken (element : PatternElement) : Effect :=
  ⟨.ofKind .unknown element.name, element.span.start⟩

/-- The sites that give a target a value.  Nothing is known about the values
that a pattern takes out of another one. -/
def Target.valueSites (named : Identifier → Effect) : Target → List Effect
  | name bound => [named bound]
  | pattern elements _ => elements.map PatternElement.taken

namespace Node

/-- The write sites that an expression is itself. -/
def exprSites : Expr → List Effect
  | .assignment operator (.symbol name nameSpan) value span =>
      [⟨.ofValue (.assignment operator (.symbol name nameSpan) value span) name, nameSpan.start⟩]
  | .update _ (.symbol name nameSpan) _ _ => [⟨.ofKind .number name, nameSpan.start⟩]
  | .function name? _ _ _ span | .classDef name? _ _ span =>
      name?.toList.map fun name => ⟨.ofKind .function name, span.start⟩
  | _ => []

/-- The write sites that a statement is itself. -/
def stmtSites : Stmt → List Effect
  | .function name _ _ span | .classDef name _ _ span => [⟨.ofKind .function name, span.start⟩]
  | .forEach _ bound overValues _ _ _ span =>
      bound.valueSites fun name =>
        ⟨.ofKind (if overValues then .unknown else .string) name, span.start⟩
  | _ => []

/-- The sites that give a parameter its default or its array. -/
def parameterSites (outer : Parameter) : List Effect :=
  match outer.target with
  | .name name =>
      outer.default?.toList.map (fun value => ⟨.ofValue value name, outer.span.start⟩) ++
        if outer.rest then [⟨.ofKind .array name, outer.span.start⟩] else []
  | .pattern _ _ => []

/-- The write sites that a node is, as opposed to those of the nodes in it. -/
def sites : Node → List Effect
  | expr inner => exprSites inner
  | stmt inner => stmtSites inner
  | parameter inner => parameterSites inner
  | element inner =>
      inner.default?.toList.map fun value => ⟨.ofValue value inner.name, inner.span.start⟩
  | binding inner => [⟨.ofKind .unknown inner.name, inner.span.start⟩]
  | declarator inner =>
      inner.value?.toList.flatMap fun value =>
        inner.target.valueSites fun name => ⟨.ofValue value name, inner.span.start⟩
  | handler inner =>
      inner.parameter?.toList.flatMap (Target.valueSites fun name =>
        ⟨.ofKind .unknown name, inner.span.start⟩)
  | property _ | target _ | member _ | block _ | clause _ => []

/-- A step on the way along a node: a write site of its own or a node in it. -/
inductive Part where
  | write (effect : Effect)
  | inner (node : Node)

/-- The parts of a target that is given a value. -/
def targetParts (named : Identifier → Effect) : Target → List Part
  | .name bound => [.write (named bound)]
  | .pattern elements nestedDefaults =>
      nestedDefaults.map (fun value => .inner (.expr value)) ++
        elements.flatMap fun entry => [.inner (.element entry), .write entry.taken]

/-- The parts of a target as it stands, without what it is given. -/
def patternParts : Target → List Part
  | .name _ => []
  | .pattern elements nestedDefaults =>
      nestedDefaults.map (fun value => .inner (.expr value)) ++
        elements.map fun entry => .inner (.element entry)

def exprParts (outer : Expr) : List Part :=
  match outer with
  | .assignment _ assigned value _ =>
      [.inner (.expr value), .inner (.expr assigned)] ++ (exprSites outer).map .write
  | _ => (exprSites outer).map .write ++ outer.children.map .inner

def stmtParts (outer : Stmt) : List Part :=
  match outer with
  | .forEach _ bound overValues subject body _ span =>
      .inner (.expr subject) ::
        targetParts (fun name =>
          ⟨.ofKind (if overValues then .unknown else .string) name, span.start⟩) bound ++
        [.inner (.stmt body)]
  | _ => (stmtSites outer).map .write ++ outer.children.map .inner

/-- The parts of a node in the order in which they take effect.  A value comes
before what it is given to, and otherwise a node before those in it. -/
def parts (node : Node) : List Part :=
  match node with
  | expr inner => exprParts inner
  | stmt inner => stmtParts inner
  | parameter inner =>
      inner.default?.toList.map (fun value => .inner (.expr value)) ++
        .inner (.target inner.target) :: (parameterSites inner).map .write
  | target inner => patternParts inner
  | element inner =>
      inner.default?.toList.flatMap fun value =>
        [.inner (.expr value), .write ⟨.ofValue value inner.name, inner.span.start⟩]
  | declarator inner =>
      inner.value?.toList.flatMap fun value =>
        .inner (.expr value) ::
          targetParts (fun name => ⟨.ofValue value name, inner.span.start⟩) inner.target
  | property _ | member _ | block _ | binding _ | handler _ | clause _ =>
      (sites node).map .write ++ node.children.map .inner

theorem inside_of_mem_targetParts {inner : Node} {named : Identifier → Effect} {bound : Target}
    (h : .inner inner ∈ targetParts named bound) : Inside inner (.target bound) := by
  apply Inside.child
  cases bound with
  | name bound => simp [targetParts] at h
  | pattern elements nestedDefaults =>
      simp [targetParts] at h
      rcases h with ⟨value, hvalue, rfl⟩ | ⟨entry, hentry, rfl⟩ <;>
        simp_all [children, Target.children]

/-- A node among the parts of another one is one of its children or, in a
target, a child of a child. -/
theorem child_of_mem_parts {inner node : Node} (h : .inner inner ∈ node.parts) :
    ∃ child ∈ node.children, Inside inner child := by
  cases node with
  | expr outer =>
      refine ⟨inner, ?_, .self inner⟩
      cases outer <;> simp_all [parts, exprParts, children, Expr.children]
      grind
  | stmt outer =>
      cases outer with
      | forEach kind? bound overValues subject body id span =>
          simp only [parts, stmtParts, List.cons_append, List.mem_cons, Part.inner.injEq,
            List.mem_append, List.not_mem_nil, or_false] at h
          rcases h with rfl | hbound | rfl
          · exact ⟨_, by simp [children, Stmt.children], .self _⟩
          · exact ⟨_, by simp [children, Stmt.children], inside_of_mem_targetParts hbound⟩
          · exact ⟨_, by simp [children, Stmt.children], .self _⟩
      | _ =>
          refine ⟨inner, ?_, .self inner⟩
          simp_all [parts, stmtParts, children, Stmt.children]
  | declarator outer =>
      simp only [parts, List.mem_flatMap, Option.mem_toList, List.mem_cons, Part.inner.injEq] at h
      obtain ⟨value, hvalue, rfl | hbound⟩ := h
      · exact ⟨.expr value, by simp [children, hvalue], .self _⟩
      · exact ⟨_, by simp [children], inside_of_mem_targetParts hbound⟩
  | target outer =>
      refine ⟨inner, ?_, .self inner⟩
      cases outer <;> simp_all [parts, patternParts, children, Target.children]
      grind
  | _ =>
      refine ⟨inner, ?_, .self inner⟩
      simp_all [parts, children] <;> grind

theorem sizeOf_part {inner node : Node} (h : .inner inner ∈ node.parts) :
    sizeOf inner < sizeOf node := by
  obtain ⟨child, hchild, hinside⟩ := child_of_mem_parts h
  have hle := hinside.sizeOf_le
  have hlt := sizeOf_child hchild
  omega

/-- The write sites in a node, in the order in which they take effect. -/
def effects (node : Node) : List Effect :=
  node.parts.attach.flatMap fun
    | ⟨.write effect, _⟩ => [effect]
    | ⟨.inner child, _⟩ => child.effects
termination_by sizeOf node
decreasing_by exact sizeOf_part ‹_›

/-- The write sites of a part, in the order in which they take effect. -/
def Part.effects : Part → List Effect
  | .write effect => [effect]
  | .inner node => node.effects

theorem effects_eq (node : Node) : node.effects = node.parts.flatMap Part.effects := by
  have hval : node.effects = node.parts.attach.flatMap fun part => Part.effects part.val := by
    rw [effects]
    congr 1
    funext ⟨part, hpart⟩
    cases part <;> rfl
  rw [hval, ← List.flatMap_map, List.attach_map_subtype_val]

end Node

/-- The write sites of a name in a pattern, with what is taken apart for it. -/
def PatternElement.writes (kind? : Option Kind) (entry : PatternElement) : List WriteSite :=
  valueWrites entry.name entry.default? ++
    kind?.toList.map fun kind => .ofKind kind entry.name

def Parameter.writes (parameter : Parameter) : List WriteSite :=
  parameterWrites [parameter]

def Declarator.writes (declarator : Declarator) : List WriteSite :=
  declaratorWrites [declarator]

def SwitchClause.writes (clause : SwitchClause) : List WriteSite :=
  exprWrites? clause.test? ++ stmtWrites clause.body

def CatchClause.writes (handler : CatchClause) : List WriteSite :=
  handlerWrites? (some handler)

section Lists

@[simp] theorem exprWrites_eq (exprs : List Expr) :
    exprWrites exprs = exprs.flatMap Expr.writes := by
  induction exprs with
  | nil => rfl
  | cons expr others ih => rw [exprWrites, ih, List.flatMap_cons]

@[simp] theorem exprWrites?_eq (expr? : Option Expr) :
    exprWrites? expr? = expr?.toList.flatMap Expr.writes := by
  cases expr? <;> simp [exprWrites?]

@[simp] theorem propertyWrites_eq (properties : List Property) :
    propertyWrites properties = properties.flatMap fun entry => entry.value.writes := by
  induction properties with
  | nil => rfl
  | cons entry others ih =>
      obtain ⟨key, value⟩ := entry
      rw [propertyWrites, ih, List.flatMap_cons]

@[simp] theorem valueWrites_eq (name : Identifier) (value? : Option Expr) :
    valueWrites name value? =
      value?.toList.flatMap fun value => value.writes ++ [.ofValue value name] := by
  cases value? <;> simp [valueWrites]

@[simp] theorem elementWrites_eq (kind? : Option Kind) (elements : List PatternElement) :
    elementWrites kind? elements = elements.flatMap (PatternElement.writes kind?) := by
  induction elements with
  | nil => rfl
  | cons entry others ih =>
      obtain ⟨name, default?, span⟩ := entry
      rw [elementWrites, ih, List.flatMap_cons]
      rfl

@[simp] theorem parameterWrites_eq (parameters : List Parameter) :
    parameterWrites parameters = parameters.flatMap Parameter.writes := by
  induction parameters with
  | nil => rfl
  | cons parameter others ih =>
      obtain ⟨target, default?, rest, span⟩ := parameter
      cases target <;>
        rw [parameterWrites, ih, List.flatMap_cons, Parameter.writes, parameterWrites,
          parameterWrites, List.append_nil]

@[simp] theorem memberWrites_eq (members : List Member) :
    memberWrites members = members.flatMap fun inner => exprWrites? inner.value? := by
  induction members with
  | nil => rfl
  | cons inner others ih =>
      obtain ⟨key, isStatic, value?, span⟩ := inner
      rw [memberWrites, ih, List.flatMap_cons]

@[simp] theorem blockWrites?_eq (block? : Option Block) :
    blockWrites? block? = block?.toList.flatMap Block.writes := by
  cases block? <;> simp [blockWrites?]

@[simp] theorem declaratorWrites_eq (declarators : List Declarator) :
    declaratorWrites declarators = declarators.flatMap Declarator.writes := by
  induction declarators with
  | nil => rfl
  | cons declarator others ih =>
      obtain ⟨target, value?, span⟩ := declarator
      rw [List.flatMap_cons, ← ih]
      cases value? <;> cases target <;> simp [declaratorWrites, Declarator.writes]

@[simp] theorem handlerWrites?_eq (handler? : Option CatchClause) :
    handlerWrites? handler? = handler?.toList.flatMap CatchClause.writes := by
  cases handler? with
  | none => rfl
  | some handler => simp [CatchClause.writes]

@[simp] theorem clauseWrites_eq (clauses : List SwitchClause) :
    clauseWrites clauses = clauses.flatMap SwitchClause.writes := by
  induction clauses with
  | nil => rfl
  | cons clause others ih =>
      obtain ⟨test?, body, span⟩ := clause
      rw [clauseWrites, ih, List.flatMap_cons]
      rfl

@[simp] theorem stmtWrites_eq (stmts : List Stmt) :
    stmtWrites stmts = stmts.flatMap Stmt.writes := by
  induction stmts with
  | nil => rfl
  | cons stmt others ih => rw [stmtWrites, ih, List.flatMap_cons]

@[simp] theorem stmtWrites?_eq (stmt? : Option Stmt) :
    stmtWrites? stmt? = stmt?.toList.flatMap Stmt.writes := by
  cases stmt? <;> simp [stmtWrites?]

end Lists

namespace Node

/-- The write sites of a node, in the order in which they take effect. -/
def writes : Node → List WriteSite
  | expr inner => inner.writes
  | property inner => inner.value.writes
  | parameter inner => inner.writes
  | target inner => inner.patternWrites none
  | element inner => inner.writes none
  | member inner => exprWrites? inner.value?
  | stmt inner => inner.writes
  | block inner => inner.writes
  | binding inner => [.ofKind .unknown inner.name]
  | declarator inner => inner.writes
  | handler inner => inner.writes
  | clause inner => inner.writes

/-- The write sites of a part without their offsets. -/
def Part.writes : Part → List WriteSite
  | .write effect => [effect.site]
  | .inner node => node.writes

theorem writes_targetParts (named : Identifier → Effect) (bound : Target) :
    (targetParts named bound).flatMap Part.writes =
      match bound with
      | .name name => [(named name).site]
      | bound => bound.patternWrites (some .unknown) := by
  cases bound with
  | name bound => simp [targetParts, Part.writes]
  | pattern elements nestedDefaults =>
      simp [targetParts, Part.writes, Target.patternWrites, writes, List.flatMap_map,
        PatternElement.taken, List.flatMap_assoc]
      congr 1
      funext entry
      simp [PatternElement.writes]

theorem writes_eq (node : Node) : node.writes = node.parts.flatMap Part.writes := by
  cases node with
  | expr outer =>
      cases outer with
      | assignment operator target value span =>
          cases target <;> simp [writes, Expr.writes, parts, exprParts, exprSites, Part.writes]
      | update operator operand leading span =>
          cases operand <;>
            simp [writes, Expr.writes, parts, exprParts, exprSites, Expr.children, Part.writes]
      | _ =>
          simp [writes, Expr.writes, parts, exprParts, exprSites, Expr.children, Part.writes,
            List.flatMap_map, Function.comp_def, ← List.map_eq_flatMap]
  | stmt outer =>
      cases outer with
      | forEach kind? bound overValues subject body id span =>
          cases bound <;>
            simp [writes, Stmt.writes, parts, stmtParts, writes_targetParts, Part.writes]
      | _ =>
          simp [writes, Stmt.writes, parts, stmtParts, stmtSites, Stmt.children, Part.writes,
            List.flatMap_map, Function.comp_def, ← List.map_eq_flatMap]
  | parameter outer =>
      obtain ⟨bound, default?, rest, span⟩ := outer
      cases bound <;> cases default? <;> cases rest <;>
        simp [writes, Parameter.writes, parameterWrites, parts, parameterSites, Part.writes,
          Target.patternWrites]
  | target outer =>
      cases outer <;>
        simp [writes, parts, patternParts, Target.patternWrites, Part.writes, List.flatMap_map]
  | element outer =>
      simp [writes, parts, PatternElement.writes, Part.writes, List.flatMap_assoc]
  | declarator outer =>
      obtain ⟨bound, value?, span⟩ := outer
      cases bound <;> cases value? <;>
        simp [writes, Declarator.writes, declaratorWrites, parts, writes_targetParts, Part.writes]
  | handler outer =>
      obtain ⟨bound?, body, span⟩ := outer
      rcases bound? with _ | _ | _ <;>
        simp [writes, CatchClause.writes, handlerWrites?, parts, sites, children, Part.writes,
          Target.valueSites, Target.names, Target.patternWrites, PatternElement.taken,
          List.flatMap_map, Function.comp_def, ← List.map_eq_flatMap]
  | block outer =>
      cases outer
      simp [writes, Block.writes, parts, sites, children, Part.writes, List.flatMap_map,
        Function.comp_def]
  | _ =>
      simp [writes, SwitchClause.writes, parts, sites, children, Part.writes, List.flatMap_map,
        Function.comp_def]

theorem induct {motive : Node → Prop}
    (step : ∀ node, (∀ inner, .inner inner ∈ node.parts → motive inner) → motive node)
    (node : Node) : motive node :=
  step node fun inner _ => induct step inner
termination_by sizeOf node
decreasing_by exact sizeOf_part ‹_›

theorem site_effects (node : Node) : node.effects.map Effect.site = node.writes := by
  induction node using induct with
  | step node ih =>
      rw [effects_eq, writes_eq, List.map_flatMap]
      refine List.flatMap_congr fun part hpart => ?_
      cases part with
      | write effect => rfl
      | inner inner => exact ih inner hpart

theorem mem_effects {effect : Effect} {node : Node} :
    effect ∈ node.effects ↔
      .write effect ∈ node.parts ∨ ∃ inner, .inner inner ∈ node.parts ∧ effect ∈ inner.effects := by
  rw [effects_eq, List.mem_flatMap]
  constructor
  · rintro ⟨part, hpart, heffect⟩
    cases part with
    | write other =>
        obtain rfl := List.mem_singleton.mp heffect
        exact .inl hpart
    | inner inner => exact .inr ⟨inner, hpart, heffect⟩
  · rintro (hwrite | ⟨inner, hinner, heffect⟩)
    · exact ⟨_, hwrite, List.mem_singleton_self effect⟩
    · exact ⟨_, hinner, heffect⟩

theorem mem_targetParts {effect : Effect} {named : Identifier → Effect} {bound : Target} :
    .write effect ∈ targetParts named bound ↔ effect ∈ bound.valueSites named := by
  cases bound <;> simp [targetParts, Target.valueSites, eq_comm]

theorem mem_sites {effect : Effect} {node : Node} :
    .write effect ∈ node.parts ↔ effect ∈ node.sites := by
  cases node with
  | expr outer => cases outer <;> simp [parts, exprParts, sites]
  | stmt outer => cases outer <;> simp [parts, stmtParts, sites, stmtSites, mem_targetParts]
  | target outer => cases outer <;> simp [parts, patternParts, sites]
  | _ => simp [parts, sites, mem_targetParts, eq_comm]

theorem site_of_mem_effects {effect : Effect} {node : Node} (h : effect ∈ node.effects) :
    ∃ inner, Inside inner node ∧ effect ∈ inner.sites := by
  induction node using induct with
  | step node ih =>
      rcases mem_effects.mp h with hwrite | ⟨part, hpart, heffect⟩
      · exact ⟨node, .self node, mem_sites.mp hwrite⟩
      · obtain ⟨inner, hinner, hsite⟩ := ih part hpart heffect
        obtain ⟨child, hchild, hinside⟩ := child_of_mem_parts hpart
        exact ⟨inner, .deeper hchild (hinner.trans hinside), hsite⟩

theorem named_of_valueSites {named : Identifier → Effect} {bound : Target} {effect : Effect}
    {value : Expr} (h : effect ∈ bound.valueSites named)
    (hvalue : effect.site.contribution = .value value) :
    ∃ name, (named name).site.contribution = .value value := by
  cases bound with
  | name name =>
      obtain rfl := List.mem_singleton.mp h
      exact ⟨name, hvalue⟩
  | pattern elements nestedDefaults =>
      obtain ⟨element, -, rfl⟩ := List.mem_map.mp h
      cases hvalue

theorem inside_of_sites {effect : Effect} {node : Node} {value : Expr} (h : effect ∈ node.sites)
    (hvalue : effect.site.contribution = .value value) : Inside (.expr value) node := by
  cases node with
  | expr outer =>
      cases outer with
      | assignment operator target given span =>
          cases target with
          | symbol name nameSpan =>
              obtain rfl := List.mem_singleton.mp h
              cases hvalue
              exact .self _
          | _ => cases h
      | update operator operand leading span =>
          cases operand with
          | symbol name nameSpan =>
              obtain rfl := List.mem_singleton.mp h
              cases hvalue
          | _ => cases h
      | function name? | classDef name? =>
          obtain ⟨name, -, rfl⟩ := List.mem_map.mp h
          cases hvalue
      | _ => cases h
  | stmt outer =>
      cases outer with
      | function | classDef =>
          obtain rfl := List.mem_singleton.mp h
          cases hvalue
      | forEach =>
          obtain ⟨name, hname⟩ := named_of_valueSites h hvalue
          cases hname
      | _ => cases h
  | parameter outer =>
      obtain ⟨name | pattern, default?, rest, span⟩ := outer
      · rcases List.mem_append.mp h with h | h
        · obtain ⟨given, hgiven, rfl⟩ := List.mem_map.mp h
          cases hvalue
          exact .child (List.mem_cons_of_mem _ (List.mem_map_of_mem hgiven))
        · cases rest with
          | false => cases h
          | true =>
              obtain rfl := List.mem_singleton.mp h
              cases hvalue
      · cases h
  | element outer =>
      obtain ⟨given, hgiven, rfl⟩ := List.mem_map.mp h
      cases hvalue
      exact .child (List.mem_map_of_mem hgiven)
  | binding outer =>
      obtain rfl := List.mem_singleton.mp h
      cases hvalue
  | declarator outer =>
      obtain ⟨given, hgiven, hsite⟩ := List.mem_flatMap.mp h
      obtain ⟨name, hname⟩ := named_of_valueSites hsite hvalue
      cases hname
      exact .child (List.mem_cons_of_mem _ (List.mem_map_of_mem hgiven))
  | handler outer =>
      obtain ⟨bound, -, hsite⟩ := List.mem_flatMap.mp h
      obtain ⟨name, hname⟩ := named_of_valueSites hsite hvalue
      cases hname
  | property | target | member | block | clause => cases h

theorem patternParts_sublist (named : Identifier → Effect) (bound : Target) :
    (patternParts bound).Sublist (targetParts named bound) := by
  cases bound with
  | name bound => exact List.nil_sublist _
  | pattern elements nestedDefaults =>
      refine (List.Sublist.refl _).append ?_
      induction elements with
      | nil => exact List.nil_sublist _
      | cons entry others ih => exact (ih.cons _).cons_cons _

theorem sublist_effects_of_parts {parts : List Part} {node : Node}
    (h : parts.Sublist node.parts) : (parts.flatMap Part.effects).Sublist node.effects := by
  rw [effects_eq]
  exact h.flatMap Part.effects

theorem sublist_effects_of_child {child node : Node} (hnode : node.Initialized)
    (hchild : child ∈ node.children) : child.effects.Sublist node.effects := by
  have hpart (hinner : .inner child ∈ node.parts) : child.effects.Sublist node.effects := by
    have hparts := sublist_effects_of_parts (List.singleton_sublist.mpr hinner)
    rwa [List.flatMap_singleton] at hparts
  have htarget (named : Identifier → Effect) {bound : Target}
      (hbound : (targetParts named bound).Sublist node.parts) :
      (target bound).effects.Sublist node.effects := by
    rw [effects_eq (target bound)]
    exact sublist_effects_of_parts ((patternParts_sublist named bound).trans hbound)
  cases node with
  | expr outer =>
      apply hpart
      cases outer <;> simp_all [parts, exprParts, children, Expr.children]
      grind
  | stmt outer =>
      cases outer with
      | forEach kind? bound overValues subject body id span =>
          simp only [children, Stmt.children, List.mem_cons, List.not_mem_nil, or_false] at hchild
          rcases hchild with rfl | rfl | rfl
          · exact htarget _ ((List.sublist_append_left _ _).cons _)
          · exact hpart (by simp [parts, stmtParts])
          · exact hpart (by simp [parts, stmtParts])
      | _ =>
          apply hpart
          simp_all [parts, stmtParts, children, Stmt.children]
  | declarator outer =>
      obtain ⟨bound, value?, span⟩ := outer
      cases value? with
      | none =>
          obtain ⟨name, rfl⟩ := hnode rfl
          obtain rfl : child = .target (.name name) := by simpa [children] using hchild
          rw [effects_eq]
          exact List.nil_sublist _
      | some value =>
          simp only [children, List.mem_cons, Option.toList_some, List.map_cons, List.map_nil,
            List.not_mem_nil, or_false] at hchild
          rcases hchild with rfl | rfl
          · refine htarget (fun name => ⟨.ofValue value name, span.start⟩) ?_
            simp [parts]
          · exact hpart (by simp [parts])
  | target outer =>
      apply hpart
      cases outer <;> simp_all [parts, patternParts, children, Target.children]
      grind
  | _ =>
      apply hpart
      simp_all [parts, children] <;> grind

theorem sublist_effects_of_inside {inner outer : Node} (hinside : Inside inner outer)
    (hinitialized : ∀ node, Inside node outer → node.Initialized) :
    inner.effects.Sublist outer.effects := by
  induction hinside with
  | self => exact List.Sublist.refl _
  | deeper hchild hinside ih =>
      refine (ih ?_).trans (sublist_effects_of_child (hinitialized _ (.self _)) hchild)
      intro node hnode
      exact hinitialized node (hnode.trans (.child hchild))

theorem mem_effects_of_inside {effect : Effect} {inner outer : Node} (hinside : Inside inner outer)
    (hinitialized : ∀ node, Inside node outer → node.Initialized) (h : effect ∈ inner.sites) :
    effect ∈ outer.effects :=
  (sublist_effects_of_inside hinside hinitialized).subset
    (mem_effects.mpr (.inl (mem_sites.mpr h)))

end Node

end ScriptKinds
