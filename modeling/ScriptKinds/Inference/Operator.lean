import ScriptKinds.Kind.Set
import ScriptKinds.Token.Kind

namespace ScriptKinds

/-- The operators on numbers that have no meaning on strings. -/
def isArithmetic : TokenKind → Bool
  | .dash | .star | .slash | .percent | .starStar | .ampersand | .pipe | .caret | .shiftLeft
  | .shiftRight | .unsignedShiftRight => true
  | _ => false

/-- The operators whose result is a boolean whatever their operands are. -/
def isComparison : TokenKind → Bool
  | .equals | .notEquals | .strictEquals | .strictNotEquals | .less | .lessEquals | .greater
  | .greaterEquals | .instanceofWord | .inWord => true
  | _ => false

/-- The kind of the result of a binary operator, from the kinds that its
operands may have. -/
def binaryKind (operator : TokenKind) (left right : KindSet) : Kind :=
  let numbers := left.isExactly .number && right.isExactly .number
  if operator = .plus then
    if numbers then .number
    else if left.isExactly .string || right.isExactly .string then .string
    else .unknown
  else if isArithmetic operator then
    if numbers then .number else .unknown
  else if isComparison operator then .boolean
  else .unknown

/-- The binary operator in a compound assignment. -/
def compoundOperator? : TokenKind → Option TokenKind
  | .plusEquals => some .plus
  | .minusEquals => some .dash
  | .starEquals => some .star
  | .slashEquals => some .slash
  | .percentEquals => some .percent
  | .starStarEquals => some .starStar
  | .ampersandEquals => some .ampersand
  | .pipeEquals => some .pipe
  | .caretEquals => some .caret
  | .shiftLeftEquals => some .shiftLeft
  | .shiftRightEquals => some .shiftRight
  | .unsignedShiftRightEquals => some .unsignedShiftRight
  | _ => none

/-- The kind of the result of a unary operator, from the kinds that its operand
may have. -/
def unaryKind (operator : TokenKind) (operand : KindSet) : Kind :=
  match operator with
  | .not | .deleteWord => .boolean
  | .typeofWord => .string
  | .voidWord => .undefined
  | .dash | .plus | .tilde => if operand.isExactly .number then .number else .unknown
  | _ => .unknown

/-- The kind of what a constructor of the language creates, by its name. -/
def constructedKind (name : String) : Kind :=
  if name = "Array" then .array
  else if name = "Object" then .object
  else if name = "Function" then .function
  else .unknown

end ScriptKinds
