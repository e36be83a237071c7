import ScriptKinds.Proofs.Lexeme.Numeral
import ScriptKinds.Proofs.Token.Lexed

/-!
Longest matches.

Where several lexemes could start, the longest one is read: a mark is the longest
operator there, a word and a number end where they cannot go on, and a point in front of
a digit belongs to a number.  The table of operators is searched from its start, so this
depends on no operator standing before one that it starts.
-/

namespace ScriptKinds

open Text Lexeme

namespace Lexeme

/-- The longest text of some sort that a text starts with. -/
structure Longest (sort : List Char → Prop) (part text : List Char) : Prop where
  member : sort part
  starts : part <+: text
  longest : ∀ other, sort other → other <+: text → other.length ≤ part.length

theorem longest_numeral {cs : List Char} (h : numberLength cs ≠ 0) :
    Longest Numeral (cs.take (numberLength cs)) cs := by
  refine ⟨numeral_take h, List.take_prefix _ _, fun other hother hstarts => ?_⟩
  have hle := length_le_numberLength hother hstarts
  rwa [List.length_take, Nat.min_eq_left (numberLength_le cs)]

theorem numberLength_point {d : Char} {cs : List Char} (h : isDigit d = true) :
    numberLength ('.' :: d :: cs) ≠ 0 := by
  have hfraction : Mantissa ([] ++ '.' :: [d]) :=
    .fraction (.inr (List.cons_ne_nil _ _)) nofun (List.forall_mem_singleton.mpr h)
  have hnumeral : Numeral ['.', d] := .decimal hfraction .none
  have hle : 2 ≤ numberLength ('.' :: d :: cs) := hnumeral.length_le cs
  omega

/-- The text of an operator or punctuation mark. -/
def IsOperator (text : List Char) : Prop :=
  String.ofList text ∈ TokenKind.operators.map Prod.fst

end Lexeme

namespace TokenKind

theorem operators_unshadowed :
    operators.Pairwise fun entry later => ¬entry.1.toList <+: later.1.toList := by
  decide

theorem longest_find? {cs : List Char} {entry : String × TokenKind}
    (h : operators.find? (fun entry => entry.1.toList.isPrefixOf cs) = some entry) :
    Longest IsOperator entry.1.toList cs := by
  obtain ⟨hmatch, before, after, hsplit, hearlier⟩ := List.find?_eq_some_iff_append.mp h
  have hstart := List.isPrefixOf_iff_prefix.mp hmatch
  refine ⟨?_, hstart, fun other hother hstarts => ?_⟩
  · rw [IsOperator, String.ofList_toList]
    exact List.mem_map_of_mem (List.mem_of_find?_eq_some h)
  obtain ⟨candidate, hcandidate, htext⟩ := List.mem_map.mp hother
  obtain rfl : candidate.1.toList = other := by rw [htext, String.toList_ofList]
  rw [hsplit, List.mem_append, List.mem_cons] at hcandidate
  have hunshadowed := operators_unshadowed
  rw [hsplit, List.pairwise_append, List.pairwise_cons] at hunshadowed
  by_contra hlonger
  -- Of two prefixes of a text the shorter one is a prefix of the other.
  have hprefix := List.prefix_of_prefix_length_le hstart hstarts (by omega)
  rcases hcandidate with hbefore | rfl | hafter
  · have hmissed := hearlier candidate hbefore
    rw [List.isPrefixOf_iff_prefix.mpr hstarts] at hmissed
    cases hmissed
  · exact hlonger (Nat.le_refl _)
  · exact hunshadowed.2.1.1 candidate hafter hprefix

end TokenKind

namespace Piece

open TokenKind

/-- A lexeme of a kind, in front of the rest of a text, that is not cut short. -/
structure Maximal (kind : TokenKind) (slice rest : List Char) : Prop where
  operator : kind ∈ operators.map Prod.snd →
    (String.ofList slice, kind) ∈ operators ∧ Longest IsOperator slice (slice ++ rest)
  word : kind ∈ words → ∀ c ∈ rest.head?, isWordPart c = false
  number : kind = .number → Longest Numeral slice (slice ++ rest)
  point : kind = .dot → ∀ c ∈ rest.head?, isDigit c = false

section Maximal

variable {context : Context} {c : Char} {cs : List Char} {kind : TokenKind} {more : Nat}

theorem maximal_of_word (hkind : kind ∈ words) (slice : List Char) {rest : List Char}
    (hrest : ∀ c ∈ rest.head?, isWordPart c = false) : Maximal kind slice rest := by
  have hapart : ∀ kind ∈ words, kind ∉ operators.map Prod.snd ∧ kind ≠ .number ∧ kind ≠ .dot := by
    decide
  obtain ⟨hoperator, hnumber, hdot⟩ := hapart kind hkind
  exact ⟨fun h => absurd h hoperator, fun _ => hrest, fun h => absurd h hnumber,
    fun h => absurd h hdot⟩

theorem maximal_of_number (h : numberLength (c :: cs) = more + 1) :
    Maximal .number (c :: cs.take more) (cs.drop more) := by
  have hsome : numberLength (c :: cs) ≠ 0 := by omega
  have hlongest := longest_numeral hsome
  rw [h, List.take_succ_cons] at hlongest
  refine ⟨fun hoperator => absurd hoperator (by decide), fun hword => absurd hword (by decide),
    fun _ => ?_, nofun⟩
  rw [List.cons_append, List.take_append_drop]
  exact hlongest

/-- Nothing is said about regular expressions, strings and templates, which end at their
delimiters. -/
theorem maximal_of_delimited (hkind : kind ∈ regex :: delimited) (slice rest : List Char) :
    Maximal kind slice rest := by
  have hapart : ∀ kind ∈ regex :: delimited, kind ∉ operators.map Prod.snd ∧ kind ∉ words ∧
      kind ≠ .number ∧ kind ≠ .dot := by decide
  obtain ⟨hoperator, hword, hnumber, hdot⟩ := hapart kind hkind
  exact ⟨fun h => absurd h hoperator, fun h => absurd h hword, fun h => absurd h hnumber,
    fun h => absurd h hdot⟩

theorem maximal_of_templateExtent {ended opened : TokenKind} (hended : ended ∈ delimited)
    (hopened : opened ∈ delimited) (h : templateExtent ended opened cs = .ok ⟨some kind, more⟩)
    (slice rest : List Char) : Maximal kind slice rest := by
  apply maximal_of_delimited
  obtain ⟨_, ⟨hkind, -⟩ | ⟨hkind, -⟩⟩ := of_templateExtent h
  · exact List.mem_cons_of_mem _ (Option.some.inj hkind ▸ hended)
  · exact List.mem_cons_of_mem _ (Option.some.inj hkind ▸ hopened)

theorem maximal_of_operatorExtent (hnumber : numberLength (c :: cs) = 0)
    (h : operatorExtent c cs = .ok ⟨some kind, more⟩) :
    Maximal kind (c :: cs.take more) (cs.drop more) := by
  obtain ⟨text, mark, hfind, hfound, htext⟩ := of_operatorExtent_text h
  cases hfound
  have hentry := List.mem_of_find?_eq_some hfind
  have hapart : ∀ entry ∈ operators, entry.2 ∉ words ∧ entry.2 ≠ .number := by decide
  obtain ⟨hword, hnumeral⟩ := hapart _ hentry
  rw [← htext]
  refine ⟨fun _ => ⟨?_, ?_⟩, fun h => absurd h hword, fun h => absurd h hnumeral, fun hdot => ?_⟩
  · rwa [String.ofList_toList]
  · rw [htext, List.cons_append, List.take_append_drop, ← htext]
    exact longest_find? hfind
  · have hpoint : ∀ entry ∈ operators, entry.2 = .dot → entry.1 = "." := by decide
    obtain rfl := hpoint _ hentry hdot
    obtain ⟨rfl, -⟩ := List.cons.inj htext
    intro d hd
    obtain ⟨others, rfl⟩ := List.head?_eq_some_iff.mp (Option.mem_def.mp hd)
    rw [← Bool.not_eq_true]
    exact fun hdigit => numberLength_point hdigit hnumber

theorem maximal_of_slashExtent (hnumber : numberLength ('/' :: cs) = 0)
    (h : slashExtent context cs = .ok ⟨some kind, more⟩) :
    Maximal kind ('/' :: cs.take more) (cs.drop more) := by
  unfold slashExtent at h
  split at h
  · cases h
  · split at h <;> cases h
  split at h
  · cases h
    exact maximal_of_delimited List.mem_cons_self _ _
  · exact maximal_of_operatorExtent hnumber h

theorem maximal_of_extent (h : extent context c cs = .ok ⟨some kind, more⟩) :
    Maximal kind (c :: cs.take more) (cs.drop more) := by
  unfold extent at h
  split at h
  · cases h
    exact maximal_of_word (ofWord_mem _) _ (takeWhile_run isWordPart cs).2
  split at h
  · cases h
  split at h
  · cases h
    exact maximal_of_number ‹_›
  rename_i hnumber
  split at h
  · split at h <;> cases h
    exact maximal_of_delimited (by decide) _ _
  · split at h <;> cases h
    exact maximal_of_delimited (by decide) _ _
  · exact maximal_of_templateExtent (by decide) (by decide) h _ _
  · exact maximal_of_slashExtent hnumber h
  · split at h
    · exact maximal_of_templateExtent (by decide) (by decide) h _ _
    · exact maximal_of_operatorExtent hnumber h
  · exact maximal_of_operatorExtent hnumber h

end Maximal

end Piece

namespace Token

open Piece

theorem maximal_of_mem {context : Context} {cs : List Char} {pieces : List Piece}
    (h : Cuts context cs pieces) (before : List Char) (newline : Bool) {token : Token}
    (htoken : token ∈ layOut (byteLength before) newline pieces)
    (hkind : token.kind ≠ .endOfInput) :
    ∃ head slice rest, Around (before ++ cs) token.span head slice rest ∧
      Maximal token.kind slice rest := by
  induction h generalizing before newline with
  | done =>
      rw [List.mem_singleton.mp htoken] at hkind
      exact absurd rfl hkind
  | @gap context c cs more pieces _ _ ih =>
      rw [layOut, ← byteLength_append] at htoken
      have hothers := ih _ _ htoken
      rwa [List.append_assoc, List.cons_append, List.take_append_drop] at hothers
  | @lexeme context c cs kind more pieces hextent _ ih =>
      rw [layOut, ← byteLength_append] at htoken
      have hsplit : before ++ c :: cs = before ++ (c :: cs.take more) ++ cs.drop more := by
        rw [List.append_assoc, List.cons_append, List.take_append_drop]
      rw [hsplit]
      rcases List.mem_cons.mp htoken with rfl | hothers
      · exact ⟨before, _, _, ⟨rfl, rfl, rfl⟩, maximal_of_extent hextent⟩
      · exact ih _ _ hothers

/-- The tokens of a source are longest matches. -/
theorem ofSource_longest {file source : String} {tokens : List Token}
    (h : ofSource file source = .ok tokens) :
    ∀ token ∈ tokens, token.kind ≠ .endOfInput →
      ∃ head slice rest, Around source.toList token.span head slice rest ∧
        Maximal token.kind slice rest := by
  intro token htoken hkind
  obtain ⟨pieces, hpieces, -, rfl⟩ := cuts_of_ofSource h
  exact maximal_of_mem hpieces [] false htoken hkind

/-- Points between a number, a word and a rest, behind the longest operator. -/
theorem longest_of_points :
    ∃ tokens, ofSource "points.js" "x>>>=.5e1.y...0xF" = .ok tokens ∧
      tokens.map Token.kind = [.identifier, .unsignedShiftRightEquals, .number, .dot, .identifier,
        .ellipsis, .number, .endOfInput] ∧
      ∀ token ∈ tokens, token.kind ≠ .endOfInput →
        ∃ head slice rest, Around "x>>>=.5e1.y...0xF".toList token.span head slice rest ∧
          Maximal token.kind slice rest := by
  have htokens : ofSource "points.js" "x>>>=.5e1.y...0xF" = .ok
      [⟨.identifier, "x", ⟨0, 1⟩, false⟩, ⟨.unsignedShiftRightEquals, ">>>=", ⟨1, 5⟩, false⟩,
        ⟨.number, ".5e1", ⟨5, 9⟩, false⟩, ⟨.dot, ".", ⟨9, 10⟩, false⟩,
        ⟨.identifier, "y", ⟨10, 11⟩, false⟩, ⟨.ellipsis, "...", ⟨11, 14⟩, false⟩,
        ⟨.number, "0xF", ⟨14, 17⟩, false⟩, .endAt 17 false] := by
    have hlength : "x>>>=.5e1.y...0xF".toList.length ≤ 17 := by decide
    rw [← ofSourceWithin_eq hlength]
    rfl
  exact ⟨_, htokens, rfl, ofSource_longest htokens⟩

end Token

end ScriptKinds
