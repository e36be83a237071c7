import ScriptKinds.Proofs.Token.Respacing

namespace ScriptKinds

open Text

namespace Lexeme

/-- How a character is written between quotes. -/
def escapeChar (quote c : Char) : List Char :=
  if c = '\n' then ['\\', 'n']
  else if c = '\\' ∨ c = quote then ['\\', c]
  else [c]

/-- How a text is written between quotes. -/
def escape (quote : Char) (cs : List Char) : List Char :=
  cs.flatMap (escapeChar quote)

def stringLiteral (quote : Char) (cs : List Char) : List Char :=
  quote :: (escape quote cs ++ [quote])

theorem escape_cons (quote c : Char) (cs : List Char) :
    escape quote (c :: cs) = escapeChar quote c ++ escape quote cs :=
  List.flatMap_cons

theorem unescape_cons {c : Char} (hc : c ≠ '\\') (cs : List Char) :
    unescape (c :: cs) = c :: unescape cs := by
  rw [unescape]
  all_goals
    intros
    exact hc ‹_›

theorem untilQuote_escapeChar (quote c : Char) (rest : List Char) :
    untilQuote quote (escapeChar quote c ++ rest) =
      (untilQuote quote rest).map (· + (escapeChar quote c).length) := by
  unfold escapeChar
  split
  · simp [untilQuote]
  rename_i hline
  split
  · simp [untilQuote, hline]
  · rename_i hescaped
    rw [not_or] at hescaped
    simp [untilQuote_cons quote hescaped.1, hline, hescaped.2]

section Quote

variable {quote : Char} (hquote : quote = '"' ∨ quote = '\'')

include hquote

theorem unescape_escapeChar (c : Char) (rest : List Char) :
    unescape (escapeChar quote c ++ rest) = c :: unescape rest := by
  unfold escapeChar
  split
  · rename_i hline
    rw [hline]
    simp [unescape, simpleEscape]
  split
  · rename_i hescaped
    rcases hescaped with rfl | rfl
    · simp [unescape, simpleEscape]
    · rcases hquote with rfl | rfl <;> simp [unescape, simpleEscape]
  · rename_i hescaped
    rw [not_or] at hescaped
    exact unescape_cons hescaped.1 rest

theorem unescape_escape (cs : List Char) : unescape (escape quote cs) = cs := by
  induction cs with
  | nil => rfl
  | cons c cs ih => rw [escape_cons, unescape_escapeChar hquote, ih]

theorem untilQuote_escape (cs rest : List Char) :
    untilQuote quote (escape quote cs ++ quote :: rest) = some ((escape quote cs).length + 1) := by
  induction cs with
  | nil => rcases hquote with rfl | rfl <;> simp [escape, untilQuote_cons]
  | cons c cs ih =>
      rw [escape_cons, List.append_assoc, untilQuote_escapeChar, ih, Option.map_some,
        List.length_append]
      congr 1
      omega

end Quote

end Lexeme

namespace Piece

open Lexeme

theorem extent_of_untilQuote {context : Context} {quote : Char} {cs : List Char} {n : Nat}
    (hquote : quote = '"' ∨ quote = '\'') (h : untilQuote quote cs = some n) :
    extent context quote cs = .ok ⟨some .string, n⟩ := by
  rw [extent_quote hquote, h, Option.elim_some]

theorem cuts_stringLiteral {quote : Char} (hquote : quote = '"' ∨ quote = '\'') (cs : List Char) :
    Cuts .start (stringLiteral quote cs) [⟨some .string, stringLiteral quote cs⟩] := by
  have hlength : (escape quote cs ++ [quote]).length = (escape quote cs).length + 1 := by simp
  have hextent : extent .start quote (escape quote cs ++ [quote]) =
      .ok ⟨some .string, (escape quote cs ++ [quote]).length⟩ := by
    rw [hlength]
    exact extent_of_untilQuote hquote (untilQuote_escape hquote cs [])
  have hcuts := Cuts.lexeme hextent (by rw [List.drop_length]; exact .done rfl)
  rwa [List.take_length] at hcuts

end Piece

namespace Token

open Lexeme Piece

/-- Every text can be written between either quote, and is read back, if what is
written has less than `2 ^ 32` bytes. -/
theorem ofSource_stringLiteral {quote : Char} (hquote : quote = '"' ∨ quote = '\'')
    (file text : String)
    (hsize : (String.ofList (stringLiteral quote text.toList)).utf8ByteSize < UInt32.size) :
    unescape (escape quote text.toList) = text.toList ∧
      ∃ tokens, ofSource file (String.ofList (stringLiteral quote text.toList)) = .ok tokens ∧
        tokens =
          [⟨.string, text, ⟨0, (String.ofList (stringLiteral quote text.toList)).utf8ByteSize⟩,
            false⟩,
            .endAt (String.ofList (stringLiteral quote text.toList)).utf8ByteSize false] ∧
        ∀ token ∈ tokens, token.span.kept = token.span := by
  have hback := unescape_escape hquote text.toList
  have hcuts : Cuts .start (String.ofList (stringLiteral quote text.toList)).toList
      [⟨some .string, stringLiteral quote text.toList⟩] := by
    rw [String.toList_ofList]
    exact cuts_stringLiteral hquote text.toList
  have hvalue : value .string (stringLiteral quote text.toList) = text.toList := by
    have hinside : inside 1 (stringLiteral quote text.toList) = escape quote text.toList :=
      inside_delimited quote _ rfl
    rw [value, hinside, hback]
  refine ⟨hback, _, ?_, rfl, ?_⟩
  · rw [ofSource_of_cuts hcuts, layOut, layOut, hvalue, String.ofList_toList, ← byteLength_toList,
      String.toList_ofList, Nat.zero_add]
  · intro token htoken
    simp only [List.mem_cons, List.not_mem_nil, or_false] at htoken
    obtain rfl | rfl := htoken
    · exact Span.kept_eq_self (Nat.zero_le _) hsize
    · exact Span.kept_eq_self (Nat.le_refl _) hsize

/-- A text with a quote, a line feed and a backslash in front of what would be an
escape. -/
theorem ofSource_stringLiteral_of_escapes :
    stringLiteral '\'' "é's\n\\u0041".toList = "'é\\'s\\n\\\\u0041'".toList ∧
      "'é\\'s\\n\\\\u0041'".utf8ByteSize < UInt32.size ∧
      unescape "é\\'s\\n\\\\u0041".toList = "é's\n\\u0041".toList ∧
      ∃ tokens, ofSource "text.js" "'é\\'s\\n\\\\u0041'" = .ok tokens ∧
        tokens = [⟨.string, "é's\n\\u0041", ⟨0, 16⟩, false⟩, .endAt 16 false] ∧
        ∀ token ∈ tokens, token.span.kept = token.span := by
  have hsize : "'é\\'s\\n\\\\u0041'".utf8ByteSize < UInt32.size := by decide
  exact ⟨rfl, hsize, ofSource_stringLiteral (.inr rfl) "text.js" "é's\n\\u0041" hsize⟩

end Token

end ScriptKinds
