import ScriptKinds.Token.Basic

/-!
Streams of tokens.

A stream has a last token, which ends the text, and looking beyond it yields
that token again.  So there is a token at every place of a stream.
-/

namespace ScriptKinds

/-- The tokens of a text, of which the last one ends it. -/
structure TokenStream where
  body : Array Token
  last : Token
deriving Inhabited

namespace TokenStream

/-- The stream of some tokens.  If the last of them does not end the text, a
token that does is added behind it. -/
def ofList (tokens : List Token) : TokenStream :=
  match tokens.getLast? with
  | none => ⟨#[], .endAt 0 false⟩
  | some token =>
      if token.kind == .endOfInput then ⟨tokens.dropLast.toArray, token⟩
      else ⟨tokens.toArray, .endAt token.span.stop false⟩

/-- The tokens of a stream with the one that ends it. -/
def toList (stream : TokenStream) : List Token :=
  stream.body.toList ++ [stream.last]

/-- The number of tokens of a stream. -/
def size (stream : TokenStream) : Nat :=
  stream.body.size + 1

/-- The token at a place, or the last one beyond the end. -/
def get (stream : TokenStream) (place : Nat) : Token :=
  stream.body[place]?.getD stream.last

@[simp] theorem length_toList (stream : TokenStream) : stream.toList.length = stream.size := by
  simp [toList, size]

theorem get_eq_getD_toList (stream : TokenStream) (place : Nat) :
    stream.get place = stream.toList[place]?.getD stream.last := by
  rcases Nat.lt_trichotomy place stream.body.size with h | h | h
  · simp [get, toList, h, List.getElem?_append_left]
  · simp [get, toList, h]
  · have hle : stream.body.size ≤ place := by omega
    have hlen : (stream.body.toList ++ [stream.last]).length ≤ place := by simp; omega
    simp [get, toList, Array.getElem?_eq_none hle, List.getElem?_eq_none hlen]

end TokenStream

end ScriptKinds
