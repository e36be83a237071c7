import Mathlib.Data.List.TakeWhile
import ScriptKinds.Piece
import ScriptKinds.Token.OfSource

namespace ScriptKinds

namespace Lexeme

/-- What closes a stretch of template text. -/
def TemplateEnd.delimiter : TemplateEnd → List Char
  | .backtick => ['`']
  | .substitution => ['$', '{']

theorem take_untilQuote {quote : Char} {cs : List Char} {n : Nat}
    (h : untilQuote quote cs = some n) : ∃ inner, cs.take n = inner ++ [quote] := by
  fun_induction untilQuote quote cs generalizing n with
  | case1 => cases h
  | case2 => cases h
  | case3 => cases h
  | case4 c cs hline ih =>
      obtain ⟨m, hm, rfl⟩ := Option.map_eq_some_iff.mp h
      obtain ⟨inner, hinner⟩ := ih hm
      exact ⟨'\\' :: c :: inner, by rw [List.take_succ_cons, List.take_succ_cons, hinner]; rfl⟩
  | case5 => cases h
  | case6 c cs _ _ hline hquote =>
      cases h
      obtain rfl := beq_iff_eq.mp hquote
      exact ⟨[], rfl⟩
  | case7 c cs _ _ hline hquote ih =>
      obtain ⟨m, hm, rfl⟩ := Option.map_eq_some_iff.mp h
      obtain ⟨inner, hinner⟩ := ih hm
      exact ⟨c :: inner, by rw [List.take_succ_cons, hinner]; rfl⟩

theorem take_untilTemplateEnd {cs : List Char} {n : Nat} {stop : TemplateEnd}
    (h : untilTemplateEnd cs = some (n, stop)) : ∃ inner, cs.take n = inner ++ stop.delimiter := by
  fun_induction untilTemplateEnd cs generalizing n with
  | case1 => cases h
  | case2 =>
      cases h
      exact ⟨[], rfl⟩
  | case3 =>
      cases h
      exact ⟨[], rfl⟩
  | case4 => cases h
  | case5 c cs ih =>
      obtain ⟨⟨m, stop⟩, hm, heq⟩ := Option.map_eq_some_iff.mp h
      cases heq
      obtain ⟨inner, hinner⟩ := ih hm
      exact ⟨'\\' :: c :: inner, by rw [List.take_succ_cons, List.take_succ_cons, hinner]; rfl⟩
  | case6 c cs _ _ _ _ ih =>
      obtain ⟨⟨m, stop⟩, hm, heq⟩ := Option.map_eq_some_iff.mp h
      cases heq
      obtain ⟨inner, hinner⟩ := ih hm
      exact ⟨c :: inner, by rw [List.take_succ_cons, hinner]; rfl⟩

theorem take_untilCommentEnd {cs : List Char} {n : Nat} (h : untilCommentEnd cs = some n) :
    ∃ body, cs.take n = body ++ ['*', '/'] ∧ ¬['*', '/'] <:+: body ++ ['*'] := by
  fun_induction untilCommentEnd cs generalizing n with
  | case1 => cases h
  | case2 cs =>
      cases h
      exact ⟨[], rfl, by decide⟩
  | case3 c cs hopen ih =>
      obtain ⟨m, hm, rfl⟩ := Option.map_eq_some_iff.mp h
      obtain ⟨body, hbody, hfirst⟩ := ih hm
      refine ⟨c :: body, by rw [List.take_succ_cons, hbody]; rfl, fun hinfix => ?_⟩
      rcases List.infix_cons_iff.mp hinfix with hprefix | hinside
      · -- The two characters would stand at the very start, where the scan has not seen them.
        obtain ⟨rfl, hslash⟩ := List.cons_prefix_cons.mp hprefix
        cases body with
        | nil => exact absurd hslash (by decide)
        | cons d body =>
            obtain ⟨rfl, -⟩ := List.cons_prefix_cons.mp hslash
            cases cs with
            | nil => simp at hbody
            | cons e cs =>
                cases m with
                | zero => simp at hbody
                | succ m =>
                    rw [List.take_succ_cons] at hbody
                    obtain ⟨rfl, -⟩ := List.cons.inj hbody
                    exact hopen _ rfl rfl
      · exact hfirst hinside

/-- What the lexeme of a token stands for.  The delimiters of strings and
templates do not count, and escapes are resolved in strings alone. -/
def Means (kind : TokenKind) (slice text : List Char) : Prop :=
  match kind with
  | .string => ∃ quote inner, (quote = '"' ∨ quote = '\'') ∧ slice = quote :: inner ++ [quote] ∧
      text = unescape inner
  | .template => slice = '`' :: text ++ ['`']
  | .templateHead => slice = '`' :: text ++ ['$', '{']
  | .templateMiddle => slice = '}' :: text ++ ['$', '{']
  | .templateTail => slice = '}' :: text ++ ['`']
  | _ => text = slice

/-- The kinds of lexeme that stand for their own text. -/
def isVerbatim : TokenKind → Bool
  | .endOfInput | .string | .template | .templateHead | .templateMiddle | .templateTail => false
  | _ => true

theorem inside_delimited {last : Nat} (opening : Char) (inner : List Char)
    {delimiter : List Char} (h : delimiter.length = last) :
    inside last (opening :: (inner ++ delimiter)) = inner := by
  have hlength : (opening :: (inner ++ delimiter)).length - 1 - last = inner.length := by
    simp only [List.length_cons, List.length_append]
    omega
  rw [inside, hlength]
  simp

end Lexeme

namespace Piece

open Text Lexeme

/-- A run of blanks or a comment, with the text behind it. -/
inductive Gap : List Char → List Char → Prop where
  | blanks {text rest : List Char} (hne : text ≠ []) (hblank : ∀ c ∈ text, isBlank c = true) :
      Gap text rest
  /-- A comment up to the end of its line. -/
  | line {body rest : List Char} (hbody : '\n' ∉ body) (hends : ∀ c ∈ rest.head?, c = '\n') :
      Gap ('/' :: '/' :: body) rest
  /-- A comment up to the first `*/`. -/
  | block {body rest : List Char} (hbody : ¬['*', '/'] <:+: body ++ ['*']) :
      Gap ('/' :: '*' :: body ++ ['*', '/']) rest

/-- Gaps one behind the other, with the text behind them. -/
inductive Gaps : List Char → List Char → Prop where
  | nil {rest : List Char} : Gaps [] rest
  | cons {text others rest : List Char} (hfirst : Gap text (others ++ rest))
      (hothers : Gaps others rest) : Gaps (text ++ others) rest

/-- A piece that looks as its kind says, with the text behind it. -/
def Sound (piece : Piece) (rest : List Char) : Prop :=
  match piece.kind? with
  | none => Gap piece.text rest
  | some kind => kind ≠ .endOfInput ∧ Means kind piece.text (value kind piece.text)

theorem sound_of_verbatim {kind : TokenKind} (h : isVerbatim kind = true)
    (text rest : List Char) : Sound ⟨some kind, text⟩ rest := by
  cases kind with
  | endOfInput | string | template | templateHead | templateMiddle | templateTail => cases h
  | _ => exact ⟨nofun, rfl⟩

theorem takeWhile_run (inClass : Char → Bool) (cs : List Char) :
    cs.take (runLength inClass cs) = cs.takeWhile inClass ∧
      ∀ c ∈ (cs.drop (runLength inClass cs)).head?, inClass c = false := by
  induction cs with
  | nil => exact ⟨rfl, nofun⟩
  | cons c cs ih =>
      cases hc : inClass c with
      | true => simpa [runLength, hc] using ih
      | false => simp [runLength, hc]

theorem sound_operatorExtent {c : Char} {cs : List Char} {found : Extent}
    (h : operatorExtent c cs = .ok found) :
    Sound ⟨found.kind?, c :: cs.take found.more⟩ (cs.drop found.more) := by
  unfold operatorExtent at h
  split at h
  · rename_i text kind hfind
    cases h
    have hall : ∀ entry ∈ TokenKind.operators, isVerbatim entry.2 = true := by decide
    exact sound_of_verbatim (hall _ (List.mem_of_find?_eq_some hfind)) _ _
  · cases h

theorem of_templateExtent {ended opened : TokenKind} {cs : List Char} {found : Extent}
    (h : templateExtent ended opened cs = .ok found) :
    ∃ inner, found.kind? = some ended ∧ cs.take found.more = inner ++ ['`'] ∨
      found.kind? = some opened ∧ cs.take found.more = inner ++ ['$', '{'] := by
  unfold templateExtent at h
  split at h
  · rename_i n hstop
    cases h
    obtain ⟨inner, hinner⟩ := take_untilTemplateEnd hstop
    exact ⟨inner, .inl ⟨rfl, hinner⟩⟩
  · rename_i n hstop
    cases h
    obtain ⟨inner, hinner⟩ := take_untilTemplateEnd hstop
    exact ⟨inner, .inr ⟨rfl, hinner⟩⟩
  · cases h

theorem sound_template {cs : List Char} {found : Extent}
    (h : templateExtent .template .templateHead cs = .ok found) :
    Sound ⟨found.kind?, '`' :: cs.take found.more⟩ (cs.drop found.more) := by
  obtain ⟨inner, ⟨hkind, htext⟩ | ⟨hkind, htext⟩⟩ := of_templateExtent h
  · rw [hkind, htext]
    exact ⟨nofun, congrArg ('`' :: · ++ ['`']) (inside_delimited '`' inner rfl).symm⟩
  · rw [hkind, htext]
    exact ⟨nofun, congrArg ('`' :: · ++ ['$', '{']) (inside_delimited '`' inner rfl).symm⟩

theorem sound_substituted {cs : List Char} {found : Extent}
    (h : templateExtent .templateTail .templateMiddle cs = .ok found) :
    Sound ⟨found.kind?, '}' :: cs.take found.more⟩ (cs.drop found.more) := by
  obtain ⟨inner, ⟨hkind, htext⟩ | ⟨hkind, htext⟩⟩ := of_templateExtent h
  · rw [hkind, htext]
    exact ⟨nofun, congrArg ('}' :: · ++ ['`']) (inside_delimited '}' inner rfl).symm⟩
  · rw [hkind, htext]
    exact ⟨nofun, congrArg ('}' :: · ++ ['$', '{']) (inside_delimited '}' inner rfl).symm⟩

theorem sound_slashExtent {context : Context} {cs : List Char} {found : Extent}
    (h : slashExtent context cs = .ok found) :
    Sound ⟨found.kind?, '/' :: cs.take found.more⟩ (cs.drop found.more) := by
  unfold slashExtent at h
  split at h
  · rename_i rest
    cases h
    obtain ⟨htake, hrest⟩ := takeWhile_run (· != '\n') ('/' :: rest)
    dsimp only
    rw [htake]
    refine Gap.line (fun hline => ?_) fun c hc => ?_
    · exact absurd (List.mem_takeWhile_imp hline) (by decide)
    · simpa using hrest c hc
  · rename_i rest
    split at h
    · rename_i n hclosed
      cases h
      obtain ⟨body, hbody, hfirst⟩ := take_untilCommentEnd hclosed
      rw [List.take_succ_cons, hbody]
      exact Gap.block hfirst
    · cases h
  · split at h
    · cases h
      exact sound_of_verbatim rfl _ _
    · exact sound_operatorExtent h

theorem extent_quote {context : Context} {quote : Char} (hquote : quote = '"' ∨ quote = '\'')
    (cs : List Char) :
    extent context quote cs =
      (untilQuote quote cs).elim (.error .unterminatedString) fun n => .ok ⟨some .string, n⟩ := by
  have hother : isWordStart quote = false ∧ isBlank quote = false ∧
      numberLength (quote :: cs) = 0 := by
    rcases hquote with rfl | rfl <;> exact ⟨rfl, rfl, rfl⟩
  obtain ⟨hstart, hblank, hnumber⟩ := hother
  unfold extent
  rw [hstart, hblank, hnumber]
  rcases hquote with rfl | rfl <;> cases untilQuote _ cs <;> simp

theorem sound_quoted {quote : Char} {cs : List Char} {n : Nat} (hquote : quote = '"' ∨ quote = '\'')
    (h : untilQuote quote cs = some n) :
    Sound ⟨some .string, quote :: cs.take n⟩ (cs.drop n) := by
  obtain ⟨inner, hinner⟩ := take_untilQuote h
  rw [hinner]
  refine ⟨nofun, quote, inner, hquote, rfl, ?_⟩
  exact congrArg unescape (inside_delimited quote inner rfl)

/-- What the first piece of a text can be. -/
inductive Begins (context : Context) : Char → List Char → Extent → Prop where
  | word {c : Char} {cs : List Char} {kind : TokenKind} {more : Nat}
      (hkind : kind ∈ TokenKind.identifier :: TokenKind.reservedWords.map Prod.snd) :
      Begins context c cs ⟨some kind, more⟩
  | blanks {c : Char} {cs : List Char} (hblank : isBlank c = true) :
      Begins context c cs ⟨none, runLength isBlank cs⟩
  | number {c : Char} {cs : List Char} {more : Nat} : Begins context c cs ⟨some .number, more⟩
  | string {quote : Char} {cs : List Char} {more : Nat} (hquote : quote = '"' ∨ quote = '\'')
      (hends : untilQuote quote cs = some more) : Begins context quote cs ⟨some .string, more⟩
  | template {cs : List Char} {found : Extent}
      (hfound : templateExtent .template .templateHead cs = .ok found) :
      Begins context '`' cs found
  | slash {cs : List Char} {found : Extent} (hfound : slashExtent context cs = .ok found) :
      Begins context '/' cs found
  | resumed {cs : List Char} {found : Extent} (hcloses : context.closesSubstitution = true)
      (hfound : templateExtent .templateTail .templateMiddle cs = .ok found) :
      Begins context '}' cs found
  | operator {c : Char} {cs : List Char} {found : Extent}
      (hcloses : c = '}' → context.closesSubstitution = false)
      (hfound : operatorExtent c cs = .ok found) : Begins context c cs found

theorem begins_of_extent {context : Context} {c : Char} {cs : List Char} {found : Extent}
    (h : extent context c cs = .ok found) : Begins context c cs found := by
  unfold extent at h
  split at h
  · cases h
    exact .word (TokenKind.ofWord_mem _)
  · split at h
    · cases h
      exact .blanks ‹_›
    · split at h
      · cases h
        exact .number
      · split at h
        · split at h <;> cases h
          exact .string (.inl rfl) ‹_›
        · split at h <;> cases h
          exact .string (.inr rfl) ‹_›
        · exact .template h
        · exact .slash h
        · split at h
          · exact .resumed ‹_› h
          · exact .operator (fun _ => Bool.eq_false_iff.mpr ‹_›) h
        · exact .operator (fun hc => absurd hc ‹_›) h

theorem sound_extent {context : Context} {c : Char} {cs : List Char} {found : Extent}
    (h : extent context c cs = .ok found) :
    Sound ⟨found.kind?, c :: cs.take found.more⟩ (cs.drop found.more) := by
  cases begins_of_extent h with
  | word hkind =>
      have hwords : ∀ kind ∈ TokenKind.identifier :: TokenKind.reservedWords.map Prod.snd,
          isVerbatim kind = true := by decide
      exact sound_of_verbatim (hwords _ hkind) _ _
  | blanks hblank =>
      refine Gap.blanks (List.cons_ne_nil _ _) ?_
      rw [(takeWhile_run isBlank cs).1]
      exact List.forall_mem_cons.mpr ⟨hblank, fun d hd => List.mem_takeWhile_imp hd⟩
  | number => exact sound_of_verbatim rfl _ _
  | string hquote hends => exact sound_quoted hquote hends
  | template hfound => exact sound_template hfound
  | slash hfound => exact sound_slashExtent hfound
  | resumed _ hfound => exact sound_substituted hfound
  | operator _ hfound => exact sound_operatorExtent hfound

end Piece

end ScriptKinds
