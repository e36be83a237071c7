import ScriptKinds.Source.Position
import ScriptKinds.Token.Kind

namespace ScriptKinds

/-- A token with the bytes that it covers and whether a line ends in front of it. -/
structure Token where
  kind : TokenKind
  text : String
  span : Span
  newlineBefore : Bool
deriving DecidableEq, Repr, Inhabited

namespace Token

/-- The token that ends a text. -/
def endAt (offset : Nat) (newlineBefore : Bool) : Token :=
  ⟨.endOfInput, "EOF", ⟨offset, offset⟩, newlineBefore⟩

/-- Whether a token can name a property: it is an identifier, or its text is a
reserved word. -/
def isPropertyName (token : Token) : Bool :=
  token.kind == .identifier || (TokenKind.ofReserved? token.text).isSome

/-- Whether a token can name a property of an object or a member of a class. -/
def isMemberName (token : Token) : Bool :=
  token.isPropertyName || token.kind == .string || token.kind == .number

/-- Whether a token is the identifier `word`, which is not reserved. -/
def isWord (word : String) (token : Token) : Bool :=
  token.kind == .identifier && token.text == word

/-- A token shown on three lines. -/
def shown (token : Token) : String :=
  "Token \x7b\nkind: " ++ token.kind.name ++ ",\nvalue: " ++ token.text ++ "\x7d"

end Token

end ScriptKinds
