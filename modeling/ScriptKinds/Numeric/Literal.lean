import ScriptKinds.Numeric.Binary64
import ScriptKinds.Text.CharClass

namespace ScriptKinds.Literal

open Text

/-- Whether a minus sign stands in front, and what is behind a sign. -/
def splitSign : List Char → Bool × List Char
  | '-' :: cs => (true, cs)
  | '+' :: cs => (false, cs)
  | cs => (false, cs)

/-- The integer that digits in a base write, if there is at least one digit
and nothing else. -/
def natural? (base : Nat) (digits : List Char) : Option Nat :=
  if digits.isEmpty then none
  else digits.foldlM (fun n c =>
    match hexValue? c with
    | some d => if d < base then some (base * n + d) else none
    | none => none) 0

/-- An integer in some base, perhaps with a sign. -/
def integer? (base : Nat) (cs : List Char) : Option Int :=
  let (negative, digits) := splitSign cs
  (natural? base digits).map fun n => if negative then -(n : Int) else n

/-- The value of a hexadecimal integer, if it fits into sixty-four bits. -/
def hexadecimal? (cs : List Char) : Option Binary64 :=
  match integer? 16 cs with
  | some n => if -Int.pow 2 63 ≤ n ∧ n < Int.pow 2 63 then some (.ofInt n) else none
  | none => none

/-- The exponent after the digits of a decimal, zero if there is none. -/
def exponent? : List Char → Option Int
  | [] => some 0
  | e :: cs => if e == 'e' || e == 'E' then integer? 10 cs else none

/-- The digits after the point of a decimal, and the text after them. -/
def splitFraction : List Char → List Char × List Char
  | '.' :: cs => (cs.takeWhile isDigit, cs.dropWhile isDigit)
  | cs => ([], cs)

/-- The value of a decimal without a sign. -/
def decimal? (cs : List Char) : Option Binary64 :=
  let whole := cs.takeWhile isDigit
  let (fraction, rest) := splitFraction (cs.dropWhile isDigit)
  match natural? 10 (whole ++ fraction), exponent? rest with
  | some mantissa, some exponent => some (.ofDecimal mantissa (exponent - fraction.length))
  | _, _ => none

/-- The value of the words for infinity and NaN, in any mixture of cases. -/
def special? (cs : List Char) : Option Binary64 :=
  let word := String.ofList (cs.map Char.toLower)
  if word == "inf" || word == "infinity" then some .infinity
  else if word == "nan" then some .nan
  else none

/-- The value of a decimal or special word with an optional sign. -/
def signed? (cs : List Char) : Option Binary64 :=
  let (negative, magnitude) := splitSign cs
  ((decimal? magnitude).orElse fun _ => special? magnitude).map fun x =>
    if negative then x.negate else x

/-- The value of a number token. -/
def value? (literal : String) : Option Binary64 :=
  match literal.toList with
  | '0' :: 'x' :: cs => hexadecimal? cs
  | '0' :: 'X' :: cs => hexadecimal? cs
  | cs => signed? cs

end ScriptKinds.Literal
