import ScriptKinds.Text.CharClass

namespace ScriptKinds.Lexeme

open ScriptKinds.Text

/-- The number of characters of a class at the start of a text. -/
def runLength (inClass : Char → Bool) (cs : List Char) : Nat :=
  (cs.takeWhile inClass).length

/-- The length of a hexadecimal number at the start of a text, or 0. -/
def hexLength : List Char → Nat
  | '0' :: x :: cs =>
      if x == 'x' || x == 'X' then
        match runLength isHexDigit cs with
        | 0 => 0
        | digits + 1 => digits + 3
      else 0
  | _ => 0

/-- The length of a sign at the start of a text, or 0. -/
def signLength : List Char → Nat
  | c :: _ => if c == '+' || c == '-' then 1 else 0
  | [] => 0

/-- The length of the exponent at the start of a text, or zero. -/
def exponentLength : List Char → Nat
  | e :: cs =>
      if e == 'e' || e == 'E' then
        match runLength isDigit (cs.drop (signLength cs)) with
        | 0 => 0
        | digits + 1 => 1 + signLength cs + (digits + 1)
      else 0
  | [] => 0

/-- The length of the digits and the point at the start of a text, or zero if
there is no digit among them. -/
def mantissaLength (cs : List Char) : Nat :=
  let whole := runLength isDigit cs
  match cs.drop whole with
  | '.' :: rest =>
      let fraction := runLength isDigit rest
      if whole + fraction == 0 then 0 else whole + 1 + fraction
  | _ => whole

/-- The length of a decimal number at the start of a text, or 0. -/
def decimalLength (cs : List Char) : Nat :=
  match mantissaLength cs with
  | 0 => 0
  | mantissa + 1 => mantissa + 1 + exponentLength (cs.drop (mantissa + 1))

/-- The length of a number at the start of a text, or 0. -/
def numberLength (cs : List Char) : Nat :=
  match hexLength cs with
  | 0 => decimalLength cs
  | hex + 1 => hex + 1

end ScriptKinds.Lexeme
