import ScriptKinds.Proofs.Grammar.SourceRanges
import ScriptKinds.Proofs.Token.Respacing

namespace ScriptKinds

open Text Lexeme

namespace TokenKind

/-- The kinds of the words: identifiers and reserved words. -/
def words : List TokenKind :=
  identifier :: reservedWords.map Prod.snd

/-- The kinds of lexeme between quotes, backticks or the braces of a
substitution. -/
def delimited : List TokenKind :=
  [string, template, templateHead, templateMiddle, templateTail]

/-- The kinds of the other lexemes that are no numbers. -/
def marks : List TokenKind :=
  regex :: operators.map Prod.snd

theorem ofReserved?_eq_none {c : Char} {cs : List Char} (h : isWordStart c = false) :
    ofReserved? (String.ofList (c :: cs)) = none := by
  have hstarts : ∀ entry ∈ reservedWords, entry.1.toList.head?.any isWordStart = true := by decide
  rw [ofReserved?, List.lookup_eq_none_iff]
  intro entry hentry
  rw [bne_iff_ne]
  intro hword
  have hstart := hstarts entry hentry
  rw [← hword, String.toList_ofList, List.head?_cons, Option.any_some, h] at hstart
  cases hstart

end TokenKind

namespace Lexeme

theorem value_of_verbatim {kind : TokenKind} (h : isVerbatim kind = true) (text : List Char) :
    value kind text = text := by
  cases kind with
  | endOfInput | string | template | templateHead | templateMiddle | templateTail => cases h
  | _ => rfl

end Lexeme

namespace Piece

open TokenKind

/-- What sort of lexeme a text starts with. -/
inductive Sorted : Char → List Char → TokenKind → Nat → Prop
  | word {c : Char} {cs : List Char} {kind : TokenKind} {more : Nat}
      (hkind : kind = ofWord (String.ofList (c :: cs.take more))) : Sorted c cs kind more
  | number {c : Char} {cs : List Char} {more : Nat} (hstart : isWordStart c = false)
      (hlength : numberLength (c :: cs) = more + 1) : Sorted c cs .number more
  | delimited {c : Char} {cs : List Char} {kind : TokenKind} {more : Nat}
      (hkind : kind ∈ TokenKind.delimited) : Sorted c cs kind more
  | mark {c : Char} {cs : List Char} {kind : TokenKind} {more : Nat}
      (hstart : isWordStart c = false) (hkind : kind ∈ marks) : Sorted c cs kind more

section Sorted

variable {context : Context} {c : Char} {cs : List Char} {kind : TokenKind} {more : Nat}

theorem sorted_of_templateExtent {ended opened : TokenKind} (hended : ended ∈ delimited)
    (hopened : opened ∈ delimited) (h : templateExtent ended opened cs = .ok ⟨some kind, more⟩) :
    Sorted c cs kind more := by
  obtain ⟨_, ⟨hkind, -⟩ | ⟨hkind, -⟩⟩ := of_templateExtent h
  · exact .delimited (Option.some.inj hkind ▸ hended)
  · exact .delimited (Option.some.inj hkind ▸ hopened)

theorem sorted_of_operatorExtent (hstart : isWordStart c = false)
    (h : operatorExtent c cs = .ok ⟨some kind, more⟩) : Sorted c cs kind more := by
  obtain ⟨text, mark, hfind, hfound, -⟩ := of_operatorExtent_text h
  cases hfound
  refine .mark hstart (List.mem_cons_of_mem _ (List.mem_map.mpr ⟨(text, kind), ?_, rfl⟩))
  exact List.mem_of_find?_eq_some hfind

theorem sorted_of_slashExtent (h : slashExtent context cs = .ok ⟨some kind, more⟩) :
    Sorted '/' cs kind more := by
  unfold slashExtent at h
  split at h
  · cases h
  · split at h <;> cases h
  split at h
  · cases h
    exact .mark (by decide) List.mem_cons_self
  · exact sorted_of_operatorExtent (by decide) h

theorem sorted_of_extent (h : extent context c cs = .ok ⟨some kind, more⟩) :
    Sorted c cs kind more := by
  unfold extent at h
  split at h
  · cases h
    have htake := (takeWhile_run isWordPart cs).1
    rw [runLength] at htake
    exact .word (by rw [htake])
  rename_i hstart
  rw [Bool.not_eq_true] at hstart
  split at h
  · cases h
  split at h
  · cases h
    exact .number hstart ‹_›
  split at h
  · split at h <;> cases h
    exact .delimited (by decide)
  · split at h <;> cases h
    exact .delimited (by decide)
  · exact sorted_of_templateExtent (by decide) (by decide) h
  · exact sorted_of_slashExtent h
  · split at h
    · exact sorted_of_templateExtent (by decide) (by decide) h
    · exact sorted_of_operatorExtent hstart h
  · exact sorted_of_operatorExtent hstart h

theorem isVerbatim_of_mem : ∀ kind ∈ words ++ marks, isVerbatim kind = true := by
  decide

end Sorted

end Piece

namespace Token

open Piece TokenKind

/-- A token that is a lexeme of some text with what the lexeme stands for. -/
inductive Lexed (token : Token) : Prop
  | intro {context : Context} {c : Char} {cs : List Char} {more : Nat}
      (hextent : extent context c cs = .ok ⟨some token.kind, more⟩)
      (htext : token.text = String.ofList (value token.kind (c :: cs.take more)))

theorem lexed_or_end_of_mem {context : Context} {cs : List Char} {pieces : List Piece}
    (h : Cuts context cs pieces) (offset : Nat) (newline : Bool) {token : Token}
    (htoken : token ∈ layOut offset newline pieces) :
    token.Lexed ∨ ∃ offset newline, token = endAt offset newline := by
  induction h generalizing offset newline with
  | done => exact .inr ⟨offset, newline, List.mem_singleton.mp htoken⟩
  | gap _ _ ih => exact ih _ _ htoken
  | lexeme hextent _ ih =>
      rcases List.mem_cons.mp htoken with rfl | hothers
      · exact .inl (.intro hextent rfl)
      · exact ih _ _ hothers

section Stream

variable {file source : String} {tokens : List Token}

theorem lexed_or_end (h : ofSource file source = .ok tokens) (place : Nat) :
    ((TokenStream.ofList tokens).get place).Lexed ∨
      ∃ offset newline, (TokenStream.ofList tokens).get place = endAt offset newline := by
  have hmem := (TokenStream.ofList tokens).get_mem_toList place
  obtain ⟨_, _, -, hlist, -⟩ := (covers_ofSource h).ofList_eq
  obtain ⟨pieces, hpieces, -, rfl⟩ := cuts_of_ofSource h
  rw [hlist] at hmem
  exact lexed_or_end_of_mem hpieces 0 false hmem

theorem lexed_of_kind (h : ofSource file source = .ok tokens) {place : Nat}
    (hkind : ((TokenStream.ofList tokens).get place).kind ≠ .endOfInput) :
    ((TokenStream.ofList tokens).get place).Lexed := by
  rcases lexed_or_end h place with hlexed | ⟨offset, newline, hend⟩
  · exact hlexed
  · rw [hend] at hkind
    exact absurd rfl hkind

end Stream

namespace Lexed

variable {token : Token}

/-- A token can name a property if it is a word, and otherwise only if it is
delimited. -/
theorem isPropertyName_iff (h : Lexed token) : token.isPropertyName = true ↔
    token.kind ∈ words ∨ token.kind ∈ delimited ∧ (ofReserved? token.text).isSome = true := by
  obtain @⟨context, c, cs, more, hextent, htext⟩ := h
  rw [isPropertyName, Bool.or_eq_true, beq_iff_eq, htext]
  generalize token.kind = kind at hextent
  cases sorted_of_extent hextent with
  | word hkind =>
      have hword : kind ∈ words := hkind ▸ ofWord_mem _
      rw [value_of_verbatim (isVerbatim_of_mem kind (List.mem_append_left _ hword))]
      refine iff_of_true ?_ (.inl hword)
      rw [hkind, ofWord]
      cases ofReserved? (String.ofList (c :: cs.take more)) <;> simp
  | number hstart =>
      rw [value_of_verbatim rfl, ofReserved?_eq_none hstart]
      decide
  | delimited hdelimited =>
      have hapart : ∀ kind ∈ delimited, kind ∉ words ∧ kind ≠ .identifier := by decide
      simp [hapart kind hdelimited, hdelimited]
  | mark hstart hmark =>
      have hapart : ∀ kind ∈ marks, kind ∉ words ∧ kind ≠ .identifier := by decide
      rw [value_of_verbatim (isVerbatim_of_mem kind (List.mem_append_right _ hmark)),
        ofReserved?_eq_none hstart]
      simp [hapart kind hmark]

theorem numberLength_eq (h : Lexed token) (hkind : token.kind = .number) :
    token.text.toList ≠ [] ∧ numberLength token.text.toList = token.text.toList.length := by
  obtain @⟨context, c, cs, more, hextent, htext⟩ := h
  rw [hkind] at hextent htext
  cases sorted_of_extent hextent with
  | word hword => exact absurd hword.symm (ofWord_ne _ (by decide))
  | delimited hdelimited => exact absurd hdelimited (by decide)
  | mark _ hmark => exact absurd hmark (by decide)
  | number _ hlength =>
      have hsteady := steady_numberLength (c :: cs) [] (more + 1) (Nat.le_of_eq hlength) nofun
      have hle := numberLength_le (c :: cs)
      rw [List.append_nil, List.take_succ_cons, hlength] at hsteady
      rw [hlength, List.length_cons] at hle
      rw [htext, String.toList_ofList, value_of_verbatim rfl, hsteady, List.length_cons,
        List.length_take]
      exact ⟨List.cons_ne_nil _ _, by omega⟩

end Lexed

end Token

end ScriptKinds
