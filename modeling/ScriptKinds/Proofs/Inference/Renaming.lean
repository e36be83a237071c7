import Mathlib.Logic.Equiv.Basic
import ScriptKinds.Inference.Basic
import ScriptKinds.Proofs.Scope.Renaming

namespace ScriptKinds

/-- The names that binding and inference know. -/
def specialNames : List String :=
  ["undefined", "Array", "Object", "Function"]

/-- A write site with all names in it respelled. -/
def WriteSite.rename (respell : String → String) : WriteSite → WriteSite
  | ⟨target, .kind kind⟩ => ⟨target, .kind kind⟩
  | ⟨target, .value value⟩ => ⟨target, .value (value.relabel (.outline respell))⟩

variable {respell : String → String}

section Writes

theorem ofKind_rename (kind : Kind) (names : List Identifier) :
    (names.map (Relabeling.outline respell).name).map (.ofKind kind) =
      (names.map (.ofKind kind)).map (WriteSite.rename respell) := by
  rw [List.map_map, List.map_map]
  rfl

theorem ofKind_rename? (kind : Kind) (name? : Option Identifier) :
    (name?.map (Relabeling.outline respell).name).toList.map (.ofKind kind) =
      (name?.toList.map (.ofKind kind)).map (WriteSite.rename respell) := by
  cases name? <;> rfl

theorem Expr.writes_assignment {operator : Token} {target value : Expr} {span : Span}
    (htarget : (target.relabel (.outline respell)).writes =
      target.writes.map (WriteSite.rename respell))
    (hvalue : (value.relabel (.outline respell)).writes =
      value.writes.map (WriteSite.rename respell)) :
    ((Expr.assignment operator target value span).relabel (.outline respell)).writes =
      (Expr.assignment operator target value span).writes.map (WriteSite.rename respell) := by
  cases target with
  | symbol name nameSpan =>
      simp only [Expr.relabel, Expr.writes, hvalue, List.map_append]
      rfl
  | _ => exact (congrArg₂ (· ++ ·) hvalue htarget).trans List.map_append.symm

mutual

theorem Expr.writes_outline : ∀ expr : Expr,
    (expr.relabel (.outline respell)).writes = expr.writes.map (WriteSite.rename respell)
  | .number _ _ | .string _ _ _ | .boolean _ _ | .null _ | .regex _ _ _ | .symbol _ _ => rfl
  | .array elements _ => exprWrites_outline elements
  | .object properties _ => propertyWrites_outline properties
  | .function name? parameters body _ _ => by
      simp only [Expr.relabel, Expr.writes, List.map_append, ofKind_rename?,
        parameterWrites_outline parameters, Block.writes_outline body]
  | .binary _ left right _ => by
      simp only [Expr.relabel, Expr.writes, List.map_append, Expr.writes_outline left,
        Expr.writes_outline right]
  | .unary _ operand _ => Expr.writes_outline operand
  | .update _ operand _ _ => by
      have h := Expr.writes_outline operand
      cases operand <;> first | rfl | exact h
  | .assignment _ target value _ =>
      Expr.writes_assignment (Expr.writes_outline target) (Expr.writes_outline value)
  | .call callee arguments _ | .new callee arguments _ => by
      simp only [Expr.relabel, Expr.writes, List.map_append, Expr.writes_outline callee,
        exprWrites_outline arguments]
  | .member object _ _ => Expr.writes_outline object
  | .index object index _ => by
      simp only [Expr.relabel, Expr.writes, List.map_append, Expr.writes_outline object,
        Expr.writes_outline index]
  | .conditional test consequent alternate _ => by
      simp only [Expr.relabel, Expr.writes, List.map_append, Expr.writes_outline test,
        Expr.writes_outline consequent, Expr.writes_outline alternate]
  | .template _ substitutions _ => exprWrites_outline substitutions
  | .sequence operands _ => exprWrites_outline operands
  | .spread argument _ => Expr.writes_outline argument
  | .classDef name? superclass? members _ => by
      simp only [Expr.relabel, Expr.writes, List.map_append, ofKind_rename?,
        exprWrites?_outline superclass?, memberWrites_outline members]

theorem exprWrites_outline : ∀ exprs : List Expr,
    exprWrites (relabelExprs (.outline respell) exprs) =
      (exprWrites exprs).map (WriteSite.rename respell)
  | [] => rfl
  | expr :: others => by
      simp only [relabelExprs, exprWrites, List.map_append, Expr.writes_outline expr,
        exprWrites_outline others]

theorem exprWrites?_outline : ∀ expr? : Option Expr,
    exprWrites? (relabelExpr? (.outline respell) expr?) =
      (exprWrites? expr?).map (WriteSite.rename respell)
  | none => rfl
  | some expr => Expr.writes_outline expr

theorem propertyWrites_outline : ∀ properties : List Property,
    propertyWrites (relabelProperties (.outline respell) properties) =
      (propertyWrites properties).map (WriteSite.rename respell)
  | [] => rfl
  | ⟨_, value⟩ :: others => by
      simp only [relabelProperties, propertyWrites, List.map_append, Expr.writes_outline value,
        propertyWrites_outline others]

theorem valueWrites_outline (name : Identifier) : ∀ value? : Option Expr,
    valueWrites ((Relabeling.outline respell).name name) (relabelExpr? (.outline respell) value?) =
      (valueWrites name value?).map (WriteSite.rename respell)
  | none => rfl
  | some value => by
      simp only [relabelExpr?, valueWrites, List.map_append, Expr.writes_outline value]
      rfl

theorem elementWrites_outline (kind? : Option Kind) : ∀ elements : List PatternElement,
    elementWrites kind? (relabelElements (.outline respell) elements) =
      (elementWrites kind? elements).map (WriteSite.rename respell)
  | [] => rfl
  | ⟨name, default?, _⟩ :: others => by
      simp only [relabelElements, elementWrites, List.map_append, valueWrites_outline name default?,
        elementWrites_outline kind? others]
      cases kind? <;> rfl

theorem Target.patternWrites_outline (kind? : Option Kind) : ∀ target : Target,
    (target.relabel (.outline respell)).patternWrites kind? =
      (target.patternWrites kind?).map (WriteSite.rename respell)
  | .name _ => rfl
  | .pattern elements nestedDefaults => by
      simp only [Target.relabel, Target.patternWrites, List.map_append,
        exprWrites_outline nestedDefaults, elementWrites_outline kind? elements]

theorem parameterWrites_outline : ∀ parameters : List Parameter,
    parameterWrites (relabelParameters (.outline respell) parameters) =
      (parameterWrites parameters).map (WriteSite.rename respell)
  | [] => rfl
  | ⟨.name name, default?, rest, _⟩ :: others => by
      simp only [relabelParameters, Target.relabel, parameterWrites, List.map_append,
        valueWrites_outline name default?, parameterWrites_outline others]
      cases rest <;> rfl
  | ⟨.pattern elements nestedDefaults, default?, _, _⟩ :: others => by
      have hpattern := Target.patternWrites_outline none (.pattern elements nestedDefaults)
      rw [Target.relabel] at hpattern
      simp only [relabelParameters, Target.relabel, parameterWrites, List.map_append,
        exprWrites?_outline default?, hpattern, parameterWrites_outline others]

theorem memberWrites_outline : ∀ members : List Member,
    memberWrites (relabelMembers (.outline respell) members) =
      (memberWrites members).map (WriteSite.rename respell)
  | [] => rfl
  | ⟨_, _, value?, _⟩ :: others => by
      simp only [relabelMembers, memberWrites, List.map_append, exprWrites?_outline value?,
        memberWrites_outline others]

theorem Block.writes_outline : ∀ block : Block,
    (block.relabel (.outline respell)).writes = block.writes.map (WriteSite.rename respell)
  | ⟨_, body, _⟩ => stmtWrites_outline body

theorem blockWrites?_outline : ∀ block? : Option Block,
    blockWrites? (relabelBlock? (.outline respell) block?) =
      (blockWrites? block?).map (WriteSite.rename respell)
  | none => rfl
  | some block => Block.writes_outline block

theorem declaratorWrites_outline : ∀ declarators : List Declarator,
    declaratorWrites (relabelDeclarators (.outline respell) declarators) =
      (declaratorWrites declarators).map (WriteSite.rename respell)
  | [] => rfl
  | ⟨_, none, _⟩ :: others => declaratorWrites_outline others
  | ⟨.name name, some value, _⟩ :: others => by
      simp only [relabelDeclarators, relabelExpr?, Target.relabel, declaratorWrites,
        List.map_append, Expr.writes_outline value, declaratorWrites_outline others]
      rfl
  | ⟨.pattern elements nestedDefaults, some value, _⟩ :: others => by
      have hpattern :=
        Target.patternWrites_outline (some .unknown) (.pattern elements nestedDefaults)
      rw [Target.relabel] at hpattern
      simp only [relabelDeclarators, relabelExpr?, Target.relabel, declaratorWrites,
        List.map_append, Expr.writes_outline value, hpattern, declaratorWrites_outline others]

theorem handlerWrites?_outline : ∀ handler? : Option CatchClause,
    handlerWrites? (relabelHandler? (.outline respell) handler?) =
      (handlerWrites? handler?).map (WriteSite.rename respell)
  | none => rfl
  | some ⟨none, body, _⟩ => Block.writes_outline body
  | some ⟨some target, body, _⟩ => by
      simp only [relabelHandler?, relabelTarget?, handlerWrites?, List.map_append,
        Target.names_relabel, ofKind_rename, Target.patternWrites_outline none target,
        Block.writes_outline body]

theorem clauseWrites_outline : ∀ clauses : List SwitchClause,
    clauseWrites (relabelClauses (.outline respell) clauses) =
      (clauseWrites clauses).map (WriteSite.rename respell)
  | [] => rfl
  | ⟨test?, body, _⟩ :: others => by
      simp only [relabelClauses, clauseWrites, List.map_append, exprWrites?_outline test?,
        stmtWrites_outline body, clauseWrites_outline others]

theorem Stmt.writes_outline : ∀ stmt : Stmt,
    (stmt.relabel (.outline respell)).writes = stmt.writes.map (WriteSite.rename respell)
  | .expression value _ | .raise value _ => Expr.writes_outline value
  | .block block => Block.writes_outline block
  | .varDeclaration _ declarators _ => declaratorWrites_outline declarators
  | .conditional condition consequent alternate? _ => by
      simp only [Stmt.relabel, Stmt.writes, List.map_append, Expr.writes_outline condition,
        Stmt.writes_outline consequent, stmtWrites?_outline alternate?]
  | .whileLoop condition body _ | .doWhile body condition _ => by
      simp only [Stmt.relabel, Stmt.writes, List.map_append, Expr.writes_outline condition,
        Stmt.writes_outline body]
  | .forLoop init? condition? update? body _ _ => by
      simp only [Stmt.relabel, Stmt.writes, List.map_append, stmtWrites?_outline init?,
        exprWrites?_outline condition?, exprWrites?_outline update?, Stmt.writes_outline body]
  | .forEach _ (.name name) overValues subject body _ _ => by
      simp only [Stmt.relabel, Target.relabel, Stmt.writes, List.map_append,
        Expr.writes_outline subject, Stmt.writes_outline body]
      rfl
  | .forEach _ (.pattern elements nestedDefaults) _ subject body _ _ => by
      have hpattern :=
        Target.patternWrites_outline (some .unknown) (.pattern elements nestedDefaults)
      rw [Target.relabel] at hpattern
      simp only [Stmt.relabel, Target.relabel, Stmt.writes, List.map_append,
        Expr.writes_outline subject, hpattern, Stmt.writes_outline body]
  | .function name parameters body _ => by
      simp only [Stmt.relabel, Stmt.writes, List.map_append, List.map_cons,
        parameterWrites_outline parameters, Block.writes_outline body]
      rfl
  | .result value? _ => exprWrites?_outline value?
  | .imports bindings _ _ => by
      simp only [Stmt.relabel, Stmt.writes, List.map_map]
      rfl
  | .exports declaration _ => Stmt.writes_outline declaration
  | .leave _ | .skip _ | .empty _ => rfl
  | .guarded block handler? finalizer? _ => by
      simp only [Stmt.relabel, Stmt.writes, List.map_append, Block.writes_outline block,
        handlerWrites?_outline handler?, blockWrites?_outline finalizer?]
  | .switch subject clauses _ => by
      simp only [Stmt.relabel, Stmt.writes, List.map_append, Expr.writes_outline subject,
        clauseWrites_outline clauses]
  | .labeled _ body _ => Stmt.writes_outline body
  | .classDef name superclass? members _ => by
      simp only [Stmt.relabel, Stmt.writes, List.map_append, List.map_cons,
        exprWrites?_outline superclass?, memberWrites_outline members]
      rfl

theorem stmtWrites?_outline : ∀ stmt? : Option Stmt,
    stmtWrites? (relabelStmt? (.outline respell) stmt?) =
      (stmtWrites? stmt?).map (WriteSite.rename respell)
  | none => rfl
  | some stmt => Stmt.writes_outline stmt

theorem stmtWrites_outline : ∀ stmts : List Stmt,
    stmtWrites (relabelStmts (.outline respell) stmts) =
      (stmtWrites stmts).map (WriteSite.rename respell)
  | [] => rfl
  | stmt :: others => by
      simp only [relabelStmts, stmtWrites, List.map_append, Stmt.writes_outline stmt,
        stmtWrites_outline others]

end

end Writes

namespace Model

theorem symbolFor?_rename (model : Model) (node : NodeId) :
    (model.rename respell).symbolFor? node =
      (model.symbolFor? node).map (Symbol.rename respell) := by
  change (model.resolve? node).bind (model.rename respell).symbol? = _
  rw [symbolFor?]
  cases model.resolve? node with
  | none => rfl
  | some id => exact Array.getElem?_map

theorem widen_rename (model : Model) (node : NodeId) (kinds : KindSet) :
    (model.rename respell).widen node kinds = (model.widen node kinds).rename respell := by
  have hsymbols := modify_map (Symbol.rename respell)
    (fun symbol => { symbol with kinds := symbol.kinds.union kinds })
    (fun symbol => { symbol with kinds := symbol.kinds.union kinds }) (fun _ => rfl) model.symbols
  have hresolved : (model.rename respell).resolve? node = model.resolve? node := rfl
  rw [widen, widen, hresolved]
  cases model.resolve? node with
  | none => rfl
  | some id => exact congrArg (Model.mk · _ _) (hsymbols id)

variable (hinjective : Function.Injective respell)
  (hspecial : ∀ name ∈ specialNames, respell name = name)

include hinjective hspecial

theorem respell_eq_iff (special : String) (h : special ∈ specialNames) (name : String) :
    respell name = special ↔ name = special := by
  constructor
  · intro heq
    exact hinjective (heq.trans (hspecial special h).symm)
  · rintro rfl
    exact hspecial name h

theorem kindsOf_rename (model : Model) (name : Identifier) :
    (model.rename respell).kindsOf (name.rename respell) = model.kindsOf name := by
  have hundefined := respell_eq_iff hinjective hspecial "undefined" (by decide) name.name
  simp only [kindsOf, symbolFor?_rename, Identifier.rename, hundefined]
  cases model.symbolFor? name.id <;> rfl

theorem constructedKind_respell (name : String) :
    constructedKind (respell name) = constructedKind name := by
  simp only [constructedKind,
    respell_eq_iff hinjective hspecial "Array" (by decide),
    respell_eq_iff hinjective hspecial "Object" (by decide),
    respell_eq_iff hinjective hspecial "Function" (by decide)]

theorem newKind_outline (model : Model) (callee : Expr) :
    (model.rename respell).newKind (callee.relabel (.outline respell)) = model.newKind callee := by
  cases callee with
  | symbol name span =>
      have hsymbol : (model.rename respell).symbolFor? (name.rename respell).id =
          (model.symbolFor? name.id).map (Symbol.rename respell) := symbolFor?_rename model name.id
      have hkind : constructedKind (name.rename respell).name = constructedKind name.name :=
        constructedKind_respell hinjective hspecial name.name
      have hrelabel : (Expr.symbol name span).relabel (.outline respell) =
          .symbol (name.rename respell) span := rfl
      rw [hrelabel, newKind, newKind, hsymbol, hkind]
      cases model.symbolFor? name.id <;> rfl
  | _ => rfl

end Model

section Classification

mutual

theorem classify_outline (hinjective : Function.Injective respell)
    (hspecial : ∀ name ∈ specialNames, respell name = name) (model : Model) : ∀ expr : Expr,
    classify (model.rename respell) (expr.relabel (.outline respell)) = classify model expr
  | .symbol name _ => model.kindsOf_rename hinjective hspecial name
  | .assignment operator target value _ => by
      simp only [Expr.relabel, classify, classify_outline hinjective hspecial model target,
        classify_outline hinjective hspecial model value]
      rfl
  | .sequence operands _ => classifyLast_outline hinjective hspecial model operands
  | .binary operator left right _ => by
      simp only [Expr.relabel, classify, classify_outline hinjective hspecial model left,
        classify_outline hinjective hspecial model right]
      rfl
  | .unary operator operand _ => by
      simp only [Expr.relabel, classify, classify_outline hinjective hspecial model operand]
      rfl
  | .new callee _ _ => by
      simp only [Expr.relabel, classify, model.newKind_outline hinjective hspecial]
  | .number _ _ | .string _ _ _ | .template _ _ _ | .boolean _ _ | .null _ | .array _ _
  | .object _ _ | .regex _ _ _ | .function _ _ _ _ _ | .classDef _ _ _ _ | .update _ _ _ _
  | .call _ _ _ | .member _ _ _ | .index _ _ _ | .conditional _ _ _ _ | .spread _ _ => rfl

theorem classifyLast_outline (hinjective : Function.Injective respell)
    (hspecial : ∀ name ∈ specialNames, respell name = name) (model : Model) :
    ∀ operands : List Expr,
    classifyLast (model.rename respell) (relabelExprs (.outline respell) operands) =
      classifyLast model operands
  | [] => rfl
  | [last] => classify_outline hinjective hspecial model last
  | _ :: next :: others => classifyLast_outline hinjective hspecial model (next :: others)

end

end Classification

namespace Model

section Runs

variable (hinjective : Function.Injective respell)
  (hspecial : ∀ name ∈ specialNames, respell name = name)

include hinjective hspecial

theorem write_rename (model : Model) (site : WriteSite) :
    (model.rename respell).write (site.rename respell) = (model.write site).rename respell := by
  obtain ⟨target, kind | value⟩ := site
  · exact widen_rename model target (.singleton kind)
  · rw [WriteSite.rename, write, contributed, classify_outline hinjective hspecial, widen_rename]
    rfl

theorem writeAll_rename (model : Model) (sites : List WriteSite) :
    (model.rename respell).writeAll (sites.map (WriteSite.rename respell)) =
      (model.writeAll sites).rename respell := by
  induction sites generalizing model with
  | nil => rfl
  | cons site others ih =>
      rw [List.map_cons, writeAll, List.foldl_cons, write_rename hinjective hspecial]
      exact ih (model.write site)

theorem ofScript_outline (root : Block) :
    ofScript (root.relabel (.outline respell)) = (ofScript root).rename respell := by
  rw [ofScript, bind_outline hinjective (hspecial "undefined" (by decide)), Block.writes_outline,
    writeAll_rename hinjective hspecial]
  rfl

end Runs

theorem rename_id (model : Model) : model.rename id = model := by
  have hscope : Scope.rename id = id := by
    funext scope
    simp [Scope.rename]
  have hsymbol : Symbol.rename id = id := rfl
  rw [rename, hscope, hsymbol, Array.map_id, Array.map_id]

/-- Names matter only up to renaming: the model of a script that another one
becomes by spelling all its names otherwise, with any other literals, keys,
labels and sources, is the model of that script with its names so spelled. -/
theorem ofScript_of_renamed (hinjective : Function.Injective respell)
    (hspecial : ∀ name ∈ specialNames, respell name = name) {root renamed : Block}
    (h : renamed.relabel (.outline id) = root.relabel (.outline respell)) :
    ofScript renamed = (ofScript root).rename respell := by
  have hplain : ofScript (renamed.relabel (.outline id)) = ofScript renamed := by
    rw [ofScript_outline Function.injective_id fun _ _ => rfl, rename_id]
  rw [← hplain, h, ofScript_outline hinjective hspecial]

/-- The script `a = text; let b = a;` for two names and a text. -/
def assignedAndCopied (first second text : String) : Block :=
  ⟨0, [.expression (.assignment ⟨.assignment, "=", ⟨0, 0⟩, false⟩ (.symbol ⟨first, 1⟩ ⟨0, 0⟩)
        (.string text false ⟨0, 0⟩) ⟨0, 0⟩) ⟨0, 0⟩,
      .varDeclaration .let_ [⟨.name ⟨second, 2⟩, some (.symbol ⟨first, 3⟩ ⟨0, 0⟩), ⟨0, 0⟩⟩] ⟨0, 0⟩],
    ⟨0, 0⟩⟩

theorem ofScript_of_swapped_names :
    let respell := Equiv.swap "x" "y"
    let root := assignedAndCopied "x" "y" "one"
    let renamed := assignedAndCopied "y" "x" "two"
    Function.Injective respell ∧ (∀ name ∈ specialNames, respell name = name) ∧
      renamed.relabel (.outline id) = root.relabel (.outline respell) ∧
      ofScript renamed = (ofScript root).rename respell := by
  have hinjective : Function.Injective (Equiv.swap "x" "y") := (Equiv.swap "x" "y").injective
  have hspecial : ∀ name ∈ specialNames, Equiv.swap "x" "y" name = name := by decide
  have hrenamed : (assignedAndCopied "y" "x" "two").relabel (.outline id) =
      (assignedAndCopied "x" "y" "one").relabel (.outline (Equiv.swap "x" "y")) := by
    simp [assignedAndCopied, Block.relabel, relabelStmts, Stmt.relabel, Expr.relabel,
      relabelDeclarators, Target.relabel, relabelExpr?, Relabeling.outline]
  exact ⟨hinjective, hspecial, hrenamed, ofScript_of_renamed hinjective hspecial hrenamed⟩

end Model

end ScriptKinds
