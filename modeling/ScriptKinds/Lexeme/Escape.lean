import ScriptKinds.Text.CharClass

namespace ScriptKinds.Lexeme

open ScriptKinds.Text

/-- The number that hexadecimal digits write. -/
def hexNumber? (digits : List Char) : Option Nat :=
  digits.foldlM (fun n c => (hexValue? c).map (16 * n + ·)) 0

/-- The character whose code point some hexadecimal digits write.  Surrogates
are no characters. -/
def hexChar? (digits : List Char) : Option Char :=
  match hexNumber? digits with
  | some n => if n.isValidChar then some (Char.ofNat n) else none
  | none => none

/-- The character that a backslash and one further character stand for. -/
def simpleEscape (c : Char) : Char :=
  match c with
  | 'n' => '\n'
  | 't' => '\t'
  | 'r' => '\r'
  | '0' => '\x00'
  | 'b' => '\x08'
  | 'f' => '\x0c'
  | 'v' => '\x0b'
  | c => c

/-- The text that the inside of a string literal stands for.  A hexadecimal
escape with too few digits, or for no character, stands for its own text
without the backslash. -/
def unescape : List Char → List Char
  | [] => []
  | ['\\'] => ['\\']
  | '\\' :: 'x' :: a :: b :: cs =>
      match hexChar? [a, b] with
      | some c => c :: unescape cs
      | none => 'x' :: unescape (a :: b :: cs)
  | '\\' :: 'u' :: a :: b :: c :: d :: cs =>
      match hexChar? [a, b, c, d] with
      | some e => e :: unescape cs
      | none => 'u' :: unescape (a :: b :: c :: d :: cs)
  | '\\' :: c :: cs => simpleEscape c :: unescape cs
  | c :: cs => c :: unescape cs

end ScriptKinds.Lexeme
