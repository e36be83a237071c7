import ScriptKinds.Numeric.Literal
import ScriptKinds.Text.Utf8

namespace ScriptKinds.Unix

/-- The digits of numbers in base eight. -/
def isOctalDigit (c : Char) : Bool :=
  '0' ≤ c ∧ c ≤ '7'

/-- The number that octal digits write. -/
def octalValue (digits : List Char) : Nat :=
  digits.foldl (fun value c => 8 * value + (c.toNat - '0'.toNat)) 0

/-- The byte that a letter stands for behind a backslash. -/
def letterEscape? : Char → Option UInt8
  | 'a' => some 7
  | 'b' => some 8
  | 'f' => some 12
  | 'n' => some 10
  | 'r' => some 13
  | 't' => some 9
  | 'v' => some 11
  | '\\' => some 92
  | _ => none

/-- What an escape stands for, and the number of characters that it has behind
the backslash.  Where `afterZero` is set, octal digits follow a zero. -/
def readEscape (afterZero : Bool) (cs : List Char) : List UInt8 × Nat :=
  let digits := ((if afterZero then cs.drop 1 else cs).take 3).takeWhile isOctalDigit
  match cs with
  | [] => ([92], 0)
  | c :: _ =>
      match letterEscape? c with
      | some byte => ([byte], 1)
      | none =>
          if isOctalDigit c ∧ (afterZero → c = '0') then
            ([(octalValue digits).toUInt8], if afterZero then digits.length + 1 else digits.length)
          else (92 :: Text.encode (String.singleton c), 1)

/-- The bytes of a text in which escapes are replaced. -/
def unescaped (afterZero : Bool) : List Char → List UInt8
  | [] => []
  | '\\' :: cs =>
      let (bytes, count) := readEscape afterZero cs
      bytes ++ unescaped afterZero (cs.drop count)
  | c :: cs => Text.encode (String.singleton c) ++ unescaped afterZero cs
termination_by cs => cs.length

inductive Conversion where
  | text | escapedText | number | character
deriving DecidableEq, Repr, Inhabited

/-- A piece of a format: bytes, or the place of an argument. -/
inductive FormatPiece where
  | bytes (bytes : List UInt8)
  | argument (conversion : Conversion)
deriving DecidableEq, Repr, Inhabited

/-- The conversion of a letter behind a percent sign. -/
def Conversion.ofLetter? : Char → Option Conversion
  | 's' => some .text
  | 'b' => some .escapedText
  | 'd' | 'i' | 'u' => some .number
  | 'c' => some .character
  | _ => none

def formatPieces : List Char → List FormatPiece
  | [] => []
  | '\\' :: '"' :: cs => .bytes [34] :: formatPieces cs
  | '\\' :: cs =>
      let (bytes, count) := readEscape false cs
      .bytes bytes :: formatPieces (cs.drop count)
  | '%' :: '%' :: cs => .bytes [37] :: formatPieces cs
  | '%' :: c :: cs =>
      match Conversion.ofLetter? c with
      | some conversion => .argument conversion :: formatPieces cs
      | none => .bytes [37] :: formatPieces (c :: cs)
  | c :: cs => .bytes (Text.encode (String.singleton c)) :: formatPieces cs
termination_by cs => cs.length

/-- A decimal integer without needless zeros.  What is no number counts as
zero. -/
def integerText (argument : String) : String :=
  match argument.toList with
  | '-' :: digits => "-" ++ toString ((Literal.natural? 10 digits).getD 0)
  | digits => toString ((Literal.natural? 10 digits).getD 0)

/-- An argument as a conversion prints it. -/
def Conversion.bytes (argument : String) : Conversion → List UInt8
  | text => Text.encode argument
  | escapedText => unescaped true argument.toList
  | number => Text.encode (integerText argument)
  | character => (Text.encode argument).take 1

/-- The bytes that pieces write, and the arguments that they leave. -/
def writePieces : List FormatPiece → List String → List UInt8 × List String
  | [], arguments => ([], arguments)
  | .bytes bytes :: pieces, arguments =>
      let (rest, left) := writePieces pieces arguments
      (bytes ++ rest, left)
  | .argument conversion :: pieces, arguments =>
      let (rest, left) := writePieces pieces arguments.tail
      (conversion.bytes (arguments.headD "") ++ rest, left)

/-- The bytes that at most `times` uses of some pieces write. -/
def writeRounds (pieces : List FormatPiece) : Nat → List String → List UInt8
  | 0, _ => []
  | times + 1, arguments =>
      match writePieces pieces arguments with
      | (bytes, []) => bytes
      | (bytes, left) =>
          if left.length < arguments.length then bytes ++ writeRounds pieces times left else bytes

/-- The bytes that a format writes with arguments. -/
def formatted (format : String) (arguments : List String) : List UInt8 :=
  writeRounds (formatPieces format.toList) (arguments.length + 1) arguments

end ScriptKinds.Unix
