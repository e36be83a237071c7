import ScriptKinds.Proofs.Lexeme.Shape
import ScriptKinds.Proofs.Token.Layout

namespace ScriptKinds

namespace Text

theorem byteLength_toList (text : String) : byteLength text.toList = text.utf8ByteSize := by
  suffices h : ∀ cs, (String.ofList cs).utf8ByteSize = byteLength cs by
    rw [← h, String.ofList_toList]
  intro cs
  induction cs with
  | nil => rfl
  | cons c cs ih =>
      rw [← List.singleton_append, String.ofList_append, String.utf8ByteSize_append, ih,
        ← String.singleton_eq_ofList, String.utf8ByteSize_singleton]
      rfl

/-- A text in three parts, of which the middle one covers a span. -/
structure Around (text : List Char) (span : Span) (before part after : List Char) : Prop where
  eq : text = before ++ part ++ after
  start : byteLength before = span.start
  stop : byteLength (before ++ part) = span.stop

theorem Around.stop_le {text before part after : List Char} {span : Span}
    (h : Around text span before part after) : span.stop ≤ byteLength text := by
  rw [← h.stop, h.eq, byteLength_append _ after]
  exact Nat.le_add_right _ _

end Text

namespace Piece

open Text

/-- Pieces that look as their kinds say. -/
def AllSound : List Piece → Prop
  | [] => True
  | piece :: others => piece.Sound (join others) ∧ piece.text ≠ [] ∧ AllSound others

theorem join_cut {context : Context} {cs : List Char} (h : (cut context cs).2 = .complete) :
    join (cut context cs).1 = cs := by
  fun_induction cut context cs with
  | case1 => rfl
  | case2 => cases h
  | case3 context c cs found hfound piece rest ih =>
      change c :: cs.take found.more ++ join rest.1 = c :: cs
      rw [ih h, List.cons_append, List.take_append_drop]

theorem join_cut_prefix (context : Context) (cs : List Char) : join (cut context cs).1 <+: cs := by
  fun_induction cut context cs with
  | case1 => exact List.nil_prefix
  | case2 => exact List.nil_prefix
  | case3 context c cs found hfound piece rest ih =>
      obtain ⟨behind, hbehind⟩ := ih
      refine ⟨behind, ?_⟩
      change c :: cs.take found.more ++ join rest.1 ++ behind = c :: cs
      rw [List.append_assoc, hbehind, List.cons_append, List.take_append_drop]

theorem allSound_cut {context : Context} {cs : List Char} (h : (cut context cs).2 = .complete) :
    AllSound (cut context cs).1 := by
  fun_induction cut context cs with
  | case1 => trivial
  | case2 => cases h
  | case3 context c cs found hfound piece rest ih =>
      refine ⟨?_, List.cons_ne_nil _ _, ih h⟩
      rw [join_cut h]
      exact sound_extent hfound

theorem Gaps.append {text others rest : List Char} (h : Gaps text (others ++ rest))
    (hothers : Gaps others rest) : Gaps (text ++ others) rest := by
  generalize hbehind : others ++ rest = behind at h
  induction h with
  | nil => exact hothers
  | cons hfirst _ ih =>
      subst hbehind
      rw [List.append_assoc]
      refine .cons ?_ (ih rfl)
      rw [List.append_assoc]
      exact hfirst

end Piece

namespace Token

open Text Piece Lexeme

/-- Where the last of some tokens stops, or an offset if there is none. -/
def stopOf (offset : Nat) (tokens : List Token) : Nat :=
  (tokens.getLast?.map (·.span.stop)).getD offset

theorem stopOf_cons (offset : Nat) (token : Token) (others : List Token) :
    stopOf offset (token :: others) = stopOf token.span.stop others := by
  rw [stopOf, stopOf, List.getLast?_cons]
  cases others.getLast? <;> rfl

/-- Covers offset text tokens: the text, which starts at a byte offset, consists
of the lexemes of the tokens with gaps before and between them. -/
inductive Covers : Nat → List Char → List Token → Prop
  | last {offset : Nat} {gap : List Char} {newline : Bool} (hgap : Gaps gap []) :
      Covers offset gap [endAt (offset + byteLength gap) newline]
  | token {offset : Nat} {gap slice rest : List Char} {token : Token} {others : List Token}
      (hgap : Gaps gap (slice ++ rest)) (hslice : slice ≠ [])
      (hstart : token.span.start = offset + byteLength gap)
      (hstop : token.span.stop = token.span.start + byteLength slice)
      (hkind : token.kind ≠ .endOfInput) (hmeans : Means token.kind slice token.text.toList)
      (hothers : Covers token.span.stop rest others) :
      Covers offset (gap ++ (slice ++ rest)) (token :: others)

namespace Covers

variable {offset : Nat} {text : List Char} {tokens : List Token}

theorem prepend {gap : List Char} (hgap : Gaps gap text)
    (h : Covers (offset + byteLength gap) text tokens) : Covers offset (gap ++ text) tokens := by
  cases h with
  | last hlast =>
      rw [Nat.add_assoc, ← byteLength_append]
      exact .last (.append (by rwa [List.append_nil]) hlast)
  | token hfirst hslice hstart hstop hkind hmeans hothers =>
      rw [← List.append_assoc]
      refine .token (.append hgap hfirst) hslice ?_ hstop hkind hmeans hothers
      rw [hstart, byteLength_append, Nat.add_assoc]

end Covers

theorem covers_layOut {pieces : List Piece} (h : AllSound pieces) (offset : Nat) (newline : Bool) :
    Covers offset (join pieces) (layOut offset newline pieces) := by
  fun_induction layOut offset newline pieces with
  | case1 offset newline => exact .last .nil
  | case2 offset newline text pieces ih =>
      obtain ⟨hgap, -, hothers⟩ := h
      refine .prepend ?_ (ih hothers)
      rw [← List.append_nil text]
      exact .cons hgap .nil
  | case3 offset newline kind text pieces stop ih =>
      obtain ⟨⟨hkind, hmeans⟩, hne, hothers⟩ := h
      have htext : Means kind text (String.ofList (value kind text)).toList := by
        rw [String.toList_ofList]
        exact hmeans
      have hgap : Gaps [] (text ++ join pieces) := .nil
      exact .token hgap hne rfl rfl hkind htext (ih hothers)

namespace Covers

variable {offset : Nat} {text : List Char} {tokens : List Token}

theorem ends (h : Covers offset text tokens) :
    ∃ body newline, tokens = body ++ [endAt (offset + byteLength text) newline] ∧
      ∀ token ∈ body, token.kind ≠ .endOfInput := by
  induction h with
  | @last offset gap newline hgap => exact ⟨[], newline, rfl, nofun⟩
  | @token offset gap slice rest token others hgap hslice hstart hstop hkind hmeans _ ih =>
      obtain ⟨body, newline, rfl, hbody⟩ := ih
      refine ⟨token :: body, newline, ?_, List.forall_mem_cons.mpr ⟨hkind, hbody⟩⟩
      rw [hstop, hstart, byteLength_append, byteLength_append, Nat.add_assoc, Nat.add_assoc]
      rfl

theorem le_start (h : Covers offset text tokens) : ∀ token ∈ tokens, offset ≤ token.span.start := by
  induction h with
  | last hgap => exact List.forall_mem_singleton.mpr (Nat.le_add_right _ _)
  | token hgap hslice hstart hstop hkind hmeans hothers ih =>
      refine List.forall_mem_cons.mpr ⟨by omega, fun token htoken => ?_⟩
      have hle := ih token htoken
      omega

theorem pairwise (h : Covers offset text tokens) :
    tokens.Pairwise fun token later => token.span.stop ≤ later.span.start := by
  induction h with
  | last hgap => exact List.pairwise_singleton _ _
  | token hgap hslice hstart hstop hkind hmeans hothers ih =>
      exact List.pairwise_cons.mpr ⟨hothers.le_start, ih⟩

theorem around (h : Covers offset text tokens) (before : List Char)
    (hbefore : byteLength before = offset) {token : Token} (htoken : token ∈ tokens)
    (hkind : token.kind ≠ .endOfInput) :
    ∃ head slice rest, Around (before ++ text) token.span head slice rest ∧ slice ≠ [] ∧
      Means token.kind slice token.text.toList := by
  induction h generalizing before with
  | last hgap =>
      obtain rfl := List.mem_singleton.mp htoken
      exact absurd rfl hkind
  | @token offset gap slice rest first others hgap hslice hstart hstop _ hmeans _ ih =>
      have hfirst : Around (before ++ (gap ++ (slice ++ rest))) first.span (before ++ gap) slice
          rest := by
        refine ⟨by simp, ?_, ?_⟩
        · rw [byteLength_append, hbefore, hstart]
        · rw [byteLength_append, byteLength_append, hbefore, hstop, hstart]
      rcases List.mem_cons.mp htoken with rfl | hlater
      · exact ⟨_, _, _, hfirst, hslice, hmeans⟩
      · rw [hfirst.eq]
        exact ih _ hfirst.stop hlater

theorem around_gap (h : Covers offset text tokens) (before : List Char)
    (hbefore : byteLength before = offset) {earlier later : List Token} {token : Token}
    (htokens : tokens = earlier ++ token :: later) :
    ∃ head gap rest,
      Around (before ++ text) ⟨stopOf offset earlier, token.span.start⟩ head gap rest ∧
        Gaps gap rest := by
  induction h generalizing before earlier with
  | @last offset gap newline hgap =>
      cases earlier with
      | nil =>
          obtain ⟨rfl, -⟩ := List.cons.inj htokens
          refine ⟨before, gap, [], ⟨by simp, hbefore, ?_⟩, hgap⟩
          rw [byteLength_append, hbefore]
          rfl
      | cons skipped earlier =>
          obtain ⟨-, hnil⟩ := List.cons.inj htokens
          simp at hnil
  | @token offset gap slice rest first others hgap _ hstart hstop _ _ _ ih =>
      cases earlier with
      | nil =>
          obtain ⟨rfl, -⟩ := List.cons.inj htokens
          refine ⟨before, gap, slice ++ rest, ⟨by simp, hbefore, ?_⟩, hgap⟩
          rw [byteLength_append, hbefore, hstart]
      | cons skipped earlier =>
          obtain ⟨rfl, hothers⟩ := List.cons.inj htokens
          have hreached : byteLength (before ++ gap ++ slice) = first.span.stop := by
            rw [byteLength_append, byteLength_append, hbefore, hstop, hstart]
          have hrest := ih _ hreached hothers
          rw [stopOf_cons]
          simpa using hrest

end Covers

/-- Tokens from which the source can be told, apart from what the gaps between
them say. -/
structure Lossless (source : String) (tokens : List Token) : Prop where
  ends : ∃ body newline, tokens = body ++ [endAt source.utf8ByteSize newline] ∧
    ∀ token ∈ body, token.kind ≠ .endOfInput
  spans : ∀ token ∈ tokens, token.kind ≠ .endOfInput →
    token.span.start < token.span.stop ∧ token.span.stop ≤ source.utf8ByteSize
  ordered : tokens.Pairwise fun token later => token.span.stop ≤ later.span.start
  gaps : ∀ earlier token later, tokens = earlier ++ token :: later →
    ∃ head gap rest, Around source.toList ⟨stopOf 0 earlier, token.span.start⟩ head gap rest ∧
      Gaps gap rest
  texts : ∀ token ∈ tokens, token.kind ≠ .endOfInput →
    ∃ head slice rest, Around source.toList token.span head slice rest ∧
      Means token.kind slice token.text.toList

theorem covers_ofSource {file source : String} {tokens : List Token}
    (h : ofSource file source = .ok tokens) : Covers 0 source.toList tokens := by
  rw [ofSource] at h
  split at h
  · rename_i pieces hcut
    cases h
    have hcomplete : (cut .start source.toList).2 = .complete := by rw [hcut]
    have hcovers := covers_layOut (allSound_cut hcomplete) 0 false
    rwa [join_cut hcomplete, hcut] at hcovers
  · cases h

/-- The tokens of a source lose nothing of it but the gaps: they stand in order
in the source, only blanks and comments stand between them, and each of them
carries what its part of the source stands for. -/
theorem ofSource_lossless {file source : String} {tokens : List Token}
    (h : ofSource file source = .ok tokens) : Lossless source tokens := by
  have hcovers := covers_ofSource h
  refine ⟨?_, ?_, hcovers.pairwise, ?_, ?_⟩
  · have hends := hcovers.ends
    rwa [Nat.zero_add, byteLength_toList] at hends
  · intro token htoken hkind
    obtain ⟨head, slice, rest, haround, hslice, -⟩ := hcovers.around [] rfl htoken hkind
    have hle := haround.stop_le
    have hpos := List.length_pos_iff.mpr hslice
    have hlength := length_le_byteLength slice
    rw [List.nil_append, byteLength_toList] at hle
    refine ⟨?_, hle⟩
    rw [← haround.start, ← haround.stop, byteLength_append]
    omega
  · intro earlier token later htokens
    exact hcovers.around_gap [] rfl htokens
  · intro token htoken hkind
    obtain ⟨head, slice, rest, haround, -, hmeans⟩ := hcovers.around [] rfl htoken hkind
    exact ⟨head, slice, rest, haround, hmeans⟩

/-- A template with a character of two bytes, an escape in its substitution and
a comment behind it. -/
theorem lossless_of_template :
    ofSource "template.js" "`é$\x7b'\\t'/**/\x7d` // end" = .ok
        [⟨.templateHead, "é", ⟨0, 5⟩, false⟩, ⟨.string, "\t", ⟨5, 9⟩, false⟩,
          ⟨.templateTail, "", ⟨13, 15⟩, false⟩, .endAt 22 false] ∧
      Lossless "`é$\x7b'\\t'/**/\x7d` // end"
        [⟨.templateHead, "é", ⟨0, 5⟩, false⟩, ⟨.string, "\t", ⟨5, 9⟩, false⟩,
          ⟨.templateTail, "", ⟨13, 15⟩, false⟩, .endAt 22 false] := by
  have htokens : ofSource "template.js" "`é$\x7b'\\t'/**/\x7d` // end" = .ok
      [⟨.templateHead, "é", ⟨0, 5⟩, false⟩, ⟨.string, "\t", ⟨5, 9⟩, false⟩,
        ⟨.templateTail, "", ⟨13, 15⟩, false⟩, .endAt 22 false] := by
    have hlength : "`é$\x7b'\\t'/**/\x7d` // end".toList.length ≤ 21 := by decide
    rw [← ofSourceWithin_eq hlength]
    rfl
  exact ⟨htokens, ofSource_lossless htokens⟩

end Token

end ScriptKinds
