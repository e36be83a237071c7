/-!
Character classes of the source text.

Words and numbers are built from ASCII characters alone.  Blanks are the
twenty-five characters of the Unicode property `White_Space`, a larger class
than the whitespace of the standard library.
-/

namespace ScriptKinds.Text

/-- The characters of the Unicode property `White_Space`. -/
def isBlank (c : Char) : Bool :=
  let n := c.val.toNat
  (9 ≤ n && n ≤ 13) || n == 0x20 || n == 0x85 || n == 0xA0 || n == 0x1680 ||
    (0x2000 ≤ n && n ≤ 0x200A) || n == 0x2028 || n == 0x2029 || n == 0x202F ||
    n == 0x205F || n == 0x3000

def isDigit (c : Char) : Bool :=
  '0' ≤ c && c ≤ '9'

/-- The twenty-six ASCII letters in both cases. -/
def isLetter (c : Char) : Bool :=
  ('a' ≤ c && c ≤ 'z') || ('A' ≤ c && c ≤ 'Z')

/-- The ASCII hexadecimal digits in both cases. -/
def isHexDigit (c : Char) : Bool :=
  isDigit c || ('a' ≤ c && c ≤ 'f') || ('A' ≤ c && c ≤ 'F')

/-- The characters that may start an identifier or reserved word. -/
def isWordStart (c : Char) : Bool :=
  isLetter c || c == '_' || c == '$'

/-- The characters that may continue an identifier or reserved word. -/
def isWordPart (c : Char) : Bool :=
  isWordStart c || isDigit c

/-- The value of a hexadecimal digit. -/
def hexValue? (c : Char) : Option Nat :=
  if isDigit c then some (c.val.toNat - '0'.val.toNat)
  else if 'a' ≤ c && c ≤ 'f' then some (c.val.toNat - 'a'.val.toNat + 10)
  else if 'A' ≤ c && c ≤ 'F' then some (c.val.toNat - 'A'.val.toNat + 10)
  else none

end ScriptKinds.Text
