/-!
Numbers in the binary64 format.

A number is kept as its sixty-four bits.  Rational values are rounded to the
nearest representable number, and a value half-way between two of them goes to
the one whose last bit is zero.
-/

namespace ScriptKinds

/-- A number in double precision, as its bits. -/
structure Binary64 where
  bits : UInt64
deriving DecidableEq, Repr, Inhabited

namespace Binary64

def zero : Binary64 := ⟨0⟩

def infinity : Binary64 := ⟨0x7FF0000000000000⟩

/-- The value that is not a number. -/
def nan : Binary64 := ⟨0x7FF8000000000000⟩

/-- The number with the opposite sign.  There is only one NaN. -/
def negate (x : Binary64) : Binary64 :=
  if x = nan then nan else ⟨x.bits ^^^ 0x8000000000000000⟩

/-- The integer nearest to a quotient.  Of two nearest integers the even one
is taken. -/
def divNearest (num den : Nat) : Nat :=
  let quotient := num / den
  let remainder := num % den
  if den < 2 * remainder || (den == 2 * remainder && quotient % 2 == 1) then quotient + 1
  else quotient

/-- The number of binary places by which a quotient, counted in units of the
smallest positive number, exceeds fifty-three binary digits. -/
def excess (num den : Nat) : Nat :=
  let guess := num.log2 - (den.log2 + 53)
  if num / (den * Nat.pow 2 guess) < Nat.pow 2 53 then guess else guess + 1

/-- The number nearest to a quotient.  The significand of a number is counted
in units of its last place, so the bits of a positive number are the count of
binary places that are dropped, times two to the fifty-second power, plus the
significand. -/
def ofRatio (num den : Nat) : Binary64 :=
  let scaled := num * Nat.pow 2 1074
  let dropped := excess scaled den
  let bits := dropped * Nat.pow 2 52 + divNearest scaled (den * Nat.pow 2 dropped)
  if bits < 0x7FF0000000000000 then ⟨bits.toUInt64⟩ else infinity

/-- The number nearest to a decimal `mantissa * 10 ^ exponent`.  Exponents far
outside the range of the format are settled without computing the power. -/
def ofDecimal (mantissa : Nat) (exponent : Int) : Binary64 :=
  if mantissa = 0 then zero
  else if 400 < exponent then infinity
  else if exponent < -(mantissa.log2 + 401 : Nat) then zero
  else if 0 ≤ exponent then ofRatio (mantissa * Nat.pow 10 exponent.toNat) 1
  else ofRatio mantissa (Nat.pow 10 (-exponent).toNat)

/-- The nearest number to an integer. -/
def ofInt (n : Int) : Binary64 :=
  let magnitude := ofRatio n.natAbs 1
  if n < 0 then magnitude.negate else magnitude

example : ofRatio 1 1 = ⟨0x3FF0000000000000⟩ := by decide +kernel

end Binary64

end ScriptKinds
