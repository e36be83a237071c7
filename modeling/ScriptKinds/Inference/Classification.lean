import ScriptKinds.Inference.Operator
import ScriptKinds.Scope.Model

/-!
Classification of expressions.

Classifying an expression asks which kinds its value may have, given what is
known about the symbols so far.  A name has the kinds of its symbol, an
assignment those of what is assigned and a sequence those of its last operand.
Any other expression has exactly one kind.
-/

namespace ScriptKinds

/-- The kinds of what a name stands for.  A name without a symbol is unknown,
except for `undefined`. -/
def Model.kindsOf (model : Model) (name : Identifier) : KindSet :=
  match model.symbolFor? name.id with
  | some symbol => symbol.kinds
  | none => .singleton (if name.name = "undefined" then .undefined else .unknown)

/-- The kind of what `new` creates.  A symbol hides the constructor of the
language with the same name. -/
def Model.newKind (model : Model) : Expr → Kind
  | .symbol name _ =>
      match model.symbolFor? name.id with
      | some _ => .unknown
      | none => constructedKind name.name
  | _ => .unknown

mutual

/-- The kinds that the value of an expression may have. -/
def classify (model : Model) : Expr → KindSet
  | .symbol name _ => model.kindsOf name
  | .assignment operator target value _ =>
      if operator.kind = .assignment then classify model value
      else
        match compoundOperator? operator.kind with
        | some binary =>
            .singleton (binaryKind binary (classify model target) (classify model value))
        | none => .singleton .unknown
  | .sequence operands _ => classifyLast model operands
  | .number _ _ => .singleton .number
  | .string _ _ _ | .template _ _ _ => .singleton .string
  | .boolean _ _ => .singleton .boolean
  | .null _ => .singleton .null
  | .array _ _ => .singleton .array
  | .object _ _ | .regex _ _ _ => .singleton .object
  | .function _ _ _ _ _ | .classDef _ _ _ _ => .singleton .function
  | .binary operator left right _ =>
      .singleton (binaryKind operator.kind (classify model left) (classify model right))
  | .unary operator operand _ => .singleton (unaryKind operator.kind (classify model operand))
  | .new callee _ _ => .singleton (model.newKind callee)
  | .update _ _ _ _ | .call _ _ _ | .member _ _ _ | .index _ _ _ | .conditional _ _ _ _
  | .spread _ _ => .singleton .unknown

/-- The kinds of the last of some expressions. -/
def classifyLast (model : Model) : List Expr → KindSet
  | [] => .singleton .unknown
  | [last] => classify model last
  | _ :: next :: others => classifyLast model (next :: others)

end

end ScriptKinds
