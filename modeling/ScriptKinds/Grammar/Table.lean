import ScriptKinds.Token.Kind

/-!
The table that drives the grammar of expressions and statements.

The table says for each kind of token which form of statement it starts, which
form of expression it starts, and which form of expression it continues when
it stands after an operand.  Continuing tokens have a power: the higher it is,
the closer the token binds to its operands.
-/

namespace ScriptKinds

/-- How closely a token binds, from loosest to closest. -/
inductive Power where
  | none | comma | assignment | conditional | logical | bitwise | relational | shift | additive
  | multiplicative | exponent | unary | call | member | primary
deriving DecidableEq, Repr, Inhabited

namespace Power

/-- How closely a power binds, as a number. -/
def rank : Power → Nat
  | none => 0
  | comma => 1
  | assignment => 2
  | conditional => 3
  | logical => 4
  | bitwise => 5
  | relational => 6
  | shift => 7
  | additive => 8
  | multiplicative => 9
  | exponent => 10
  | unary => 11
  | call => 12
  | member => 13
  | primary => 14

instance : LE Power := ⟨fun p q => p.rank ≤ q.rank⟩

instance : LT Power := ⟨fun p q => p.rank < q.rank⟩

instance (p q : Power) : Decidable (p ≤ q) := inferInstanceAs (Decidable (p.rank ≤ q.rank))

instance (p q : Power) : Decidable (p < q) := inferInstanceAs (Decidable (p.rank < q.rank))

end Power

/-- The forms of expression that a token can start. -/
inductive LeadingForm where
  | primary | template | regex | array | object | function | classDef | unary | spread | update
  | group | new
deriving DecidableEq, Repr, Inhabited

/-- The forms of expression that a token can continue. -/
inductive TrailingForm where
  | sequence | assignment | arrow | conditional | binary | exponent | update | call | member
  | index
deriving DecidableEq, Repr, Inhabited

/-- The forms of statement that a token can start. -/
inductive StatementForm where
  | varDeclaration | imports | exports | conditional | block | function | result | whileLoop
  | doWhile | forLoop | leave | skip | empty | guarded | raise | switch | classDef
deriving DecidableEq, Repr, Inhabited

/-- What each kind of token starts or continues. -/
structure Grammar where
  statement? : TokenKind → Option StatementForm
  leading? : TokenKind → Option LeadingForm
  trailing? : TokenKind → Option (TrailingForm × Power)

namespace Grammar

/-- The grammar in which no token starts or continues anything. -/
def blank : Grammar :=
  ⟨fun _ => none, fun _ => none, fun _ => none⟩

def script : Grammar where
  statement?
    | .varWord | .letWord | .constWord => some .varDeclaration
    | .importWord => some .imports
    | .exportWord => some .exports
    | .ifWord => some .conditional
    | .openCurly => some .block
    | .functionWord => some .function
    | .returnWord => some .result
    | .whileWord => some .whileLoop
    | .doWord => some .doWhile
    | .forWord => some .forLoop
    | .breakWord => some .leave
    | .continueWord => some .skip
    | .semicolon => some .empty
    | .tryWord => some .guarded
    | .throwWord => some .raise
    | .switchWord => some .switch
    | .classWord => some .classDef
    | _ => none
  leading?
    | .number | .identifier | .string | .template | .trueWord | .falseWord | .nullWord =>
        some .primary
    | .templateHead => some .template
    | .regex => some .regex
    | .openBracket => some .array
    | .openCurly => some .object
    | .functionWord => some .function
    | .classWord => some .classDef
    | .dash | .plus | .not | .typeofWord | .voidWord | .tilde | .deleteWord => some .unary
    | .ellipsis => some .spread
    | .plusPlus | .minusMinus => some .update
    | .openParen => some .group
    | .newWord => some .new
    | _ => none
  trailing?
    | .comma => some (.sequence, .comma)
    | .assignment | .plusEquals | .minusEquals | .starEquals | .slashEquals | .percentEquals
    | .starStarEquals | .ampersandEquals | .pipeEquals | .caretEquals | .shiftLeftEquals
    | .shiftRightEquals | .unsignedShiftRightEquals => some (.assignment, .assignment)
    | .arrow => some (.arrow, .assignment)
    | .question => some (.conditional, .conditional)
    | .and | .or | .nullish => some (.binary, .logical)
    | .pipe | .caret | .ampersand => some (.binary, .bitwise)
    | .less | .lessEquals | .greater | .greaterEquals | .equals | .notEquals | .strictEquals
    | .strictNotEquals | .inWord | .instanceofWord => some (.binary, .relational)
    | .shiftLeft | .shiftRight | .unsignedShiftRight => some (.binary, .shift)
    | .plus | .dash => some (.binary, .additive)
    | .star | .slash | .percent => some (.binary, .multiplicative)
    | .starStar => some (.exponent, .exponent)
    | .plusPlus | .minusMinus => some (.update, .call)
    | .openParen => some (.call, .call)
    | .dot => some (.member, .member)
    | .openBracket => some (.index, .member)
    | _ => none

/-- The power of a kind of token.  A token that continues an expression has
the power it continues with, any other that starts one has the highest power,
and one that only starts a statement has the lowest. -/
def power? (grammar : Grammar) (kind : TokenKind) : Option Power :=
  match grammar.trailing? kind, grammar.leading? kind, grammar.statement? kind with
  | some (_, power), _, _ => some power
  | none, some _, _ => some .primary
  | none, none, some _ => some .none
  | none, none, none => Option.none

end Grammar

end ScriptKinds
