import ScriptKinds.Lexeme.Escape
import ScriptKinds.Piece
import ScriptKinds.Text.Utf8
import ScriptKinds.Token.Basic

namespace ScriptKinds

namespace Lexeme

/-- A text without its first character and some last ones. -/
def inside (last : Nat) (text : List Char) : List Char :=
  (text.drop 1).take (text.length - 1 - last)

/-- The text of a token of a kind, given the lexeme.  Delimiters are dropped,
and escapes are resolved in strings alone. -/
def value (kind : TokenKind) (text : List Char) : List Char :=
  match kind with
  | .string => unescape (inside 1 text)
  | .template | .templateTail => inside 1 text
  | .templateHead | .templateMiddle => inside 2 text
  | _ => text

end Lexeme

namespace Token

/-- The tokens of some pieces that start at a byte offset, closed by the token
that ends the text.  The flag says whether a line break precedes the pieces. -/
def layOut (offset : Nat) (newline : Bool) : List Piece → List Token
  | [] => [endAt offset newline]
  | ⟨none, text⟩ :: pieces =>
      layOut (offset + Text.byteLength text) (newline || text.contains '\n') pieces
  | ⟨some kind, text⟩ :: pieces =>
      let stop := offset + Text.byteLength text
      ⟨kind, String.ofList (Lexeme.value kind text), ⟨offset, stop⟩, newline⟩ ::
        layOut stop false pieces

/-- The tokens of a source, or its first lexical fault. -/
def ofSource (file source : String) : Except Fault (List Token) :=
  match Piece.cut .start source.toList with
  | (pieces, .complete) => .ok (layOut 0 false pieces)
  | (pieces, .faulty cause) =>
      .error ⟨cause, Text.byteLength (Piece.join pieces), file⟩

end Token

end ScriptKinds
