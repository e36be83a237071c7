import ScriptKinds.Proofs.Grammar.PrintedOperands
import ScriptKinds.Proofs.Token.Lexed

namespace ScriptKinds

open Text Lexeme

namespace Lexeme

/-! ### Patterns -/

/-- What stands between the brackets of a class. -/
inductive ClassBody : List Char → Prop
  | nil : ClassBody []
  | escape {c : Char} {cs : List Char} (hc : c ≠ '\n') (h : ClassBody cs) :
      ClassBody ('\\' :: c :: cs)
  | plain {c : Char} {cs : List Char} (hc : c ∉ [']', '\\', '\n']) (h : ClassBody cs) :
      ClassBody (c :: cs)

/-- A text of escapes, classes and other characters, none of which closes a pattern. -/
inductive Pattern : List Char → Prop
  | nil : Pattern []
  | escape {c : Char} {cs : List Char} (hc : c ≠ '\n') (h : Pattern cs) :
      Pattern ('\\' :: c :: cs)
  | plain {c : Char} {cs : List Char} (hc : c ∉ ['/', '[', '\\', '\n']) (h : Pattern cs) :
      Pattern (c :: cs)
  | bracketed {body cs : List Char} (hbody : ClassBody body) (h : Pattern cs) :
      Pattern ('[' :: (body ++ ']' :: cs))

/-- The characters that a scan meets which passes over escapes and classes.  The flag
says whether a class is open. -/
def scanned : Bool → List Char → List Char
  | _, [] => []
  | _, ['\\'] => []
  | inClass, '\\' :: _ :: cs => scanned inClass cs
  | true, c :: cs => scanned (c != ']') cs
  | false, c :: cs => if c == '[' then scanned true cs else c :: scanned false cs

theorem scanned_inside {c : Char} (hc : c ≠ '\\') (cs : List Char) :
    scanned true (c :: cs) = scanned (c != ']') cs := by
  rw [scanned]
  · rintro rfl
    exact absurd rfl hc
  · rintro d rest rfl
    exact absurd rfl hc

theorem scanned_opening (cs : List Char) : scanned false ('[' :: cs) = scanned true cs := by
  rw [scanned, if_pos (beq_self_eq_true '[')]
  · exact nofun
  · exact nofun

theorem scanned_plain {c : Char} (hc : c ≠ '\\') (hopens : c ≠ '[') (cs : List Char) :
    scanned false (c :: cs) = c :: scanned false cs := by
  rw [scanned, if_neg (mt beq_iff_eq.mp hopens)]
  · rintro rfl
    exact absurd rfl hc
  · rintro d rest rfl
    exact absurd rfl hc

namespace ClassBody

variable {body : List Char}

theorem feed_not_mem (h : ClassBody body) : '\n' ∉ body := by
  induction h with
  | nil => exact List.not_mem_nil
  | escape hc _ ih => simp [hc.symm, ih]
  | plain hc _ ih =>
      simp only [List.mem_cons, List.not_mem_nil, or_false, not_or] at hc
      simp [Ne.symm hc.2.2, ih]

theorem scanned_append (h : ClassBody body) (rest : List Char) :
    scanned true (body ++ ']' :: rest) = scanned false rest := by
  induction h with
  | nil => exact scanned_inside (by decide) rest
  | escape _ _ ih =>
      rw [List.cons_append, List.cons_append, scanned]
      exact ih
  | plain hc _ ih =>
      simp only [List.mem_cons, List.not_mem_nil, or_false, not_or] at hc
      rw [List.cons_append, scanned_inside hc.2.1, bne_iff_ne.mpr hc.1]
      exact ih

end ClassBody

namespace Pattern

variable {pattern : List Char}

theorem feed_not_mem (h : Pattern pattern) : '\n' ∉ pattern := by
  induction h with
  | nil => exact List.not_mem_nil
  | escape hc _ ih => simp [hc.symm, ih]
  | plain hc _ ih =>
      simp only [List.mem_cons, List.not_mem_nil, or_false, not_or] at hc
      simp [Ne.symm hc.2.2.2, ih]
  | bracketed hbody _ ih => simp [hbody.feed_not_mem, ih]

theorem slash_not_mem (h : Pattern pattern) : '/' ∉ scanned false pattern := by
  induction h with
  | nil => exact List.not_mem_nil
  | escape _ _ ih => exact ih
  | plain hc _ ih =>
      simp only [List.mem_cons, List.not_mem_nil, or_false, not_or] at hc
      rw [scanned_plain hc.2.2.1 hc.2.1, List.mem_cons, not_or]
      exact ⟨Ne.symm hc.1, ih⟩
  | bracketed hbody _ ih =>
      rw [scanned_opening, hbody.scanned_append]
      exact ih

theorem scanned_append (h : Pattern pattern) (rest : List Char) :
    scanned false (pattern ++ rest) = scanned false pattern ++ scanned false rest := by
  induction h with
  | nil => rfl
  | escape _ _ ih =>
      rw [List.cons_append, List.cons_append, scanned, scanned]
      exact ih
  | plain hc _ ih =>
      simp only [List.mem_cons, List.not_mem_nil, or_false, not_or] at hc
      rw [List.cons_append, scanned_plain hc.2.2.1 hc.2.1, scanned_plain hc.2.2.1 hc.2.1, ih,
        List.cons_append]
  | bracketed hbody _ ih =>
      rw [List.cons_append, List.append_assoc, List.cons_append, scanned_opening, scanned_opening,
        hbody.scanned_append, hbody.scanned_append, ih]

end Pattern

/-- What is left of a pattern, where a class is open or not. -/
def PatternFrom : Bool → List Char → Prop
  | false, text => Pattern text
  | true, text => ∃ body rest, text = body ++ ']' :: rest ∧ ClassBody body ∧ Pattern rest

namespace PatternFrom

variable {inClass : Bool} {c : Char} {text : List Char}

theorem escape (hc : c ≠ '\n') (h : PatternFrom inClass text) :
    PatternFrom inClass ('\\' :: c :: text) := by
  cases inClass with
  | false => exact .escape hc h
  | true =>
      obtain ⟨body, rest, rfl, hbody, hrest⟩ := h
      exact ⟨'\\' :: c :: body, rest, rfl, .escape hc hbody, hrest⟩

theorem inside (hc : c ≠ '\\') (hline : c ≠ '\n') (h : PatternFrom (c != ']') text) :
    PatternFrom true (c :: text) := by
  by_cases hcloses : c = ']'
  · subst hcloses
    exact ⟨[], text, rfl, .nil, h⟩
  · rw [bne_iff_ne.mpr hcloses] at h
    obtain ⟨body, rest, rfl, hbody, hrest⟩ := h
    exact ⟨c :: body, rest, rfl, .plain (by simp [hcloses, hc, hline]) hbody, hrest⟩

theorem outside (hc : c ≠ '\\') (hline : c ≠ '\n') (hslash : c ≠ '/')
    (h : PatternFrom (c == '[') text) : PatternFrom false (c :: text) := by
  by_cases hopens : c = '['
  · subst hopens
    obtain ⟨body, rest, rfl, hbody, hrest⟩ := h
    exact .bracketed hbody hrest
  · rw [beq_false_of_ne hopens] at h
    exact .plain (by simp [hslash, hopens, hc, hline]) h

end PatternFrom

theorem take_untilSlash {inClass : Bool} {cs : List Char} {n : Nat}
    (h : untilSlash inClass cs = some n) :
    ∃ pattern, cs.take n = pattern ++ ['/'] ∧ PatternFrom inClass pattern := by
  fun_induction untilSlash inClass cs generalizing n with
  | case1 => cases h
  | case2 => cases h
  | case3 => cases h
  | case4 inClass c cs hline ih =>
      obtain ⟨m, hm, rfl⟩ := Option.map_eq_some_iff.mp h
      obtain ⟨pattern, htake, hpattern⟩ := ih hm
      refine ⟨'\\' :: c :: pattern, ?_, hpattern.escape (mt beq_iff_eq.mpr hline)⟩
      rw [List.take_succ_cons, List.take_succ_cons, htake]
      rfl
  | case5 => cases h
  | case6 c cs hlast hpair hline ih =>
      obtain ⟨m, hm, rfl⟩ := Option.map_eq_some_iff.mp h
      obtain ⟨pattern, htake, hpattern⟩ := ih hm
      refine ⟨c :: pattern, ?_,
        .inside (ne_backslash hlast hpair) (mt beq_iff_eq.mpr hline) hpattern⟩
      rw [List.take_succ_cons, htake]
      rfl
  | case7 inClass c cs _ _ _ hclass hslash =>
      cases h
      obtain rfl := beq_iff_eq.mp hslash
      rw [Bool.not_eq_true] at hclass
      subst hclass
      exact ⟨[], rfl, .nil⟩
  | case8 inClass c cs hlast hpair hline hclass hslash ih =>
      obtain ⟨m, hm, rfl⟩ := Option.map_eq_some_iff.mp h
      obtain ⟨pattern, htake, hpattern⟩ := ih hm
      rw [Bool.not_eq_true] at hclass
      subst hclass
      refine ⟨c :: pattern, ?_, .outside (ne_backslash hlast hpair) (mt beq_iff_eq.mpr hline)
        (mt beq_iff_eq.mpr hslash) hpattern⟩
      rw [List.take_succ_cons, htake]
      rfl

/-- A pattern and the flags behind its closing slash.  That slash is the first one that
a scan of both meets. -/
structure Divided (pattern flags : List Char) : Prop where
  wellFormed : Pattern pattern
  ne_nil : pattern ≠ []
  line : '\n' ∉ pattern
  letters : ∀ c ∈ flags, isLetter c = true
  passed : '/' ∉ scanned false pattern
  met : scanned false (pattern ++ '/' :: flags) =
    scanned false pattern ++ '/' :: scanned false flags

theorem divided_of_regexLength? {cs : List Char} {n : Nat} (h : regexLength? cs = some n) :
    ∃ pattern flags, cs.take n = pattern ++ '/' :: flags ∧ Divided pattern flags := by
  obtain ⟨m, hm, hne, rfl⟩ := Piece.of_regexLength? h
  obtain ⟨pattern, htake, hpattern⟩ := take_untilSlash hm
  refine ⟨pattern, (cs.drop m).take (runLength isLetter (cs.drop m)), ?_,
    hpattern, ?_, hpattern.feed_not_mem, ?_, hpattern.slash_not_mem, ?_⟩
  · rw [List.take_add, htake, List.append_assoc, List.singleton_append]
  · rintro rfl
    have hlength := congrArg List.length htake
    have hle := (untilSlash_seam hm []).1.2
    rw [List.length_take, Nat.min_eq_left hle] at hlength
    exact hne hlength
  · rw [(Piece.takeWhile_run isLetter (cs.drop m)).1]
    exact fun c hc => List.mem_takeWhile_imp hc
  · rw [hpattern.scanned_append, scanned_plain (by decide) (by decide)]

end Lexeme

namespace Piece

open TokenKind

section Regex

variable {context : Context} {c : Char} {cs : List Char} {more : Nat}

theorem operatorExtent_ne_regex : operatorExtent c cs ≠ .ok ⟨some .regex, more⟩ := by
  intro h
  obtain ⟨text, kind, hfind, hfound, -⟩ := of_operatorExtent_text h
  cases hfound
  have hapart : ∀ entry ∈ operators, entry.2 ≠ .regex := by decide
  exact hapart _ (List.mem_of_find?_eq_some hfind) rfl

theorem templateExtent_ne_regex {ended opened : TokenKind} (hended : ended ≠ .regex)
    (hopened : opened ≠ .regex) : templateExtent ended opened cs ≠ .ok ⟨some .regex, more⟩ := by
  intro h
  obtain ⟨_, ⟨hkind, -⟩ | ⟨hkind, -⟩⟩ := of_templateExtent h
  · exact hended (Option.some.inj hkind).symm
  · exact hopened (Option.some.inj hkind).symm

theorem regexLength?_of_slashExtent (h : slashExtent context cs = .ok ⟨some .regex, more⟩) :
    regexLength? cs = some more := by
  unfold slashExtent at h
  split at h
  · cases h
  · split at h <;> cases h
  split at h
  · rename_i n hlength
    cases h
    split at hlength
    · exact hlength
    · cases hlength
  · exact absurd h operatorExtent_ne_regex

theorem regexLength?_of_extent (h : extent context c cs = .ok ⟨some .regex, more⟩) :
    c = '/' ∧ regexLength? cs = some more := by
  unfold extent at h
  split at h
  · have hkind := congrArg Extent.kind? (Except.ok.inj h)
    exact absurd (Option.some.inj hkind) (ofWord_ne _ (by decide))
  split at h
  · cases h
  split at h
  · cases h
  split at h
  · split at h <;> cases h
  · split at h <;> cases h
  · exact absurd h (templateExtent_ne_regex (by decide) (by decide))
  · exact ⟨rfl, regexLength?_of_slashExtent h⟩
  · split at h
    · exact absurd h (templateExtent_ne_regex (by decide) (by decide))
    · exact absurd h operatorExtent_ne_regex
  · exact absurd h operatorExtent_ne_regex

end Regex

end Piece

namespace Script

open Grammar

/-- A regular expression token of a source has the text that it covers, which the slash
that closes the pattern divides. -/
theorem divided_of_ofSource {file source : String} {tokens : List Token}
    (htokens : Token.ofSource file source = .ok tokens) {token : Token} (hmem : token ∈ tokens)
    (hkind : token.kind = .regex) :
    ∃ pattern flags head rest,
      Around source.toList token.span head ('/' :: (pattern ++ '/' :: flags)) rest ∧
        Divided pattern flags ∧ token.text.toList = '/' :: (pattern ++ '/' :: flags) := by
  have hcovers := Token.covers_ofSource htokens
  have hends : token.kind ≠ .endOfInput := by simp [hkind]
  obtain ⟨head, slice, rest, haround, -, hmeans⟩ := hcovers.around [] rfl hmem hends
  obtain ⟨place, hplace⟩ := List.mem_iff_getElem?.mp hmem
  obtain ⟨hget, -⟩ := hcovers.get_ofList hplace hends
  have hlexed : token.Lexed := hget ▸ Token.lexed_of_kind htokens (by rwa [hget])
  obtain @⟨context, c, cs, more, hextent, htext⟩ := hlexed
  rw [hkind] at hextent htext hmeans
  obtain ⟨rfl, hlength⟩ := Piece.regexLength?_of_extent hextent
  obtain ⟨pattern, flags, htake, hdivided⟩ := divided_of_regexLength? hlength
  have hliteral : token.text.toList = '/' :: (pattern ++ '/' :: flags) := by
    rw [htext, String.toList_ofList, value_of_verbatim rfl, htake]
  obtain rfl : token.text.toList = slice := hmeans
  rw [hliteral, List.nil_append] at haround
  exact ⟨pattern, flags, head, rest, haround, hdivided, hliteral⟩

theorem not_undivided_of_ofSource {file source : String} {tokens : List Token}
    (htokens : Token.ofSource file source = .ok tokens) {token : Token} (hmem : token ∈ tokens) :
    ¬token.Undivided := by
  rintro ⟨hkind, c, rest, htext, hsize, -⟩
  obtain ⟨pattern, flags, -, -, -, -, hliteral⟩ := divided_of_ofSource htokens hmem hkind
  obtain ⟨rfl, -⟩ := List.cons.inj (hliteral.symm.trans htext)
  exact hsize rfl

/-- Each regular expression token of a source is read as a pattern and flags that make up
the part of the source it covers, divided by the slash that closes the pattern. -/
theorem regexes_divided {file source : String} {tokens : List Token}
    (htokens : Token.ofSource file source = .ok tokens) {place : Nat} {token : Token}
    (htoken : tokens[place]? = some token) (hkind : token.kind = .regex) (grammar : Grammar)
    (nextId : NodeId) :
    ∃ pattern flags head rest,
      Around source.toList token.span head ('/' :: (pattern ++ '/' :: flags)) rest ∧
        Divided pattern flags ∧
        readRegex ⟨.ofList tokens, file, grammar⟩ ⟨place, nextId⟩ =
          .ok (.regex (String.ofList pattern) (String.ofList flags) token.span)
            ⟨place + 1, nextId⟩ := by
  have hends : token.kind ≠ .endOfInput := by simp [hkind]
  obtain ⟨hget, hlt⟩ := (Token.covers_ofSource htokens).get_ofList htoken hends
  obtain ⟨pattern, flags, head, rest, haround, hdivided, hliteral⟩ :=
    divided_of_ofSource htokens (List.mem_of_getElem? htoken) hkind
  have hflags : '/' ∉ flags := fun hslash => absurd (hdivided.letters _ hslash) (by decide)
  have hread := @readRegex_eq ⟨.ofList tokens, file, grammar⟩ ⟨place, nextId⟩ hlt
  dsimp only at hread
  rw [hget, hliteral, splitRegex_literal hflags] at hread
  exact ⟨pattern, flags, head, rest, haround, hdivided, hread⟩

/-- Slashes in a class and behind a backslash do not close a pattern. -/
theorem regexes_divided_with_slashes :
    ∃ tokens, Token.ofSource "regex.js" "=/[\\]/]\\/é/gi" = .ok tokens ∧
      tokens[1]? = some ⟨.regex, "/[\\]/]\\/é/gi", ⟨1, 14⟩, false⟩ ∧
      ∃ pattern flags head rest,
        Around "=/[\\]/]\\/é/gi".toList ⟨1, 14⟩ head ('/' :: (pattern ++ '/' :: flags)) rest ∧
          Divided pattern flags ∧
          readRegex ⟨.ofList tokens, "regex.js", .script⟩ ⟨1, 1⟩ =
            .ok (.regex (String.ofList pattern) (String.ofList flags) ⟨1, 14⟩) ⟨2, 1⟩ := by
  have htokens : Token.ofSource "regex.js" "=/[\\]/]\\/é/gi" = .ok
      [⟨.assignment, "=", ⟨0, 1⟩, false⟩, ⟨.regex, "/[\\]/]\\/é/gi", ⟨1, 14⟩, false⟩,
        .endAt 14 false] := by
    have hlength : "=/[\\]/]\\/é/gi".toList.length ≤ 13 := by decide
    rw [← Token.ofSourceWithin_eq hlength]
    rfl
  exact ⟨_, htokens, rfl, @regexes_divided _ _ _ htokens 1 _ rfl rfl .script 1⟩

end Script

end ScriptKinds
