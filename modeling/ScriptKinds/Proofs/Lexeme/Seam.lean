import ScriptKinds.Proofs.Lexeme.Steady

/-!
Lexemes in front of a blank.

What a lexeme is and how far it reaches is decided by its own characters once a
blank follows them.  The exception is a slash that could have started a regular
expression: it is an operator because the rest of its line holds no closing
slash, and that has to stay so.
-/

namespace ScriptKinds

namespace Lexeme

open Text

/-! ### Failed regular expressions -/

/-- A text in which every backslash has a character behind it to escape. -/
inductive Paired : List Char → Prop where
  | nil : Paired []
  | escape {c : Char} {cs : List Char} (h : Paired cs) : Paired ('\\' :: c :: cs)
  | plain {c : Char} {cs : List Char} (hc : c ≠ '\\') (h : Paired cs) : Paired (c :: cs)

theorem Paired.of_not_mem {cs : List Char} (h : '\\' ∉ cs) : Paired cs := by
  induction cs with
  | nil => exact .nil
  | cons c cs ih =>
      rw [List.mem_cons, not_or] at h
      exact .plain (Ne.symm h.1) (ih h.2)

theorem Paired.tail {c : Char} {cs : List Char} (h : Paired (c :: cs)) (hc : c ≠ '\\') :
    Paired cs := by
  cases h with
  | escape => exact absurd rfl hc
  | plain _ h => exact h

theorem Paired.append {cs others : List Char} (h : Paired cs) (hothers : Paired others) :
    Paired (cs ++ others) := by
  induction h with
  | nil => exact hothers
  | escape _ ih => exact .escape ih
  | plain hc _ ih => exact .plain hc ih

/-- Two texts of which the second one holds no closing slash if the first one
holds none, whether a class is open or not. -/
def KeepsOpen (rest others : List Char) : Prop :=
  ∀ inClass, untilSlash inClass rest = none → untilSlash inClass others = none

theorem KeepsOpen.prepend {text rest others : List Char} (hpaired : Paired text)
    (h : KeepsOpen rest others) : KeepsOpen (text ++ rest) (text ++ others) := by
  induction hpaired with
  | nil => exact h
  | @escape c text _ ih =>
      intro inClass hnone
      simp only [List.cons_append, untilSlash] at hnone ⊢
      split
      · rfl
      · rename_i hline
        rw [if_neg hline, Option.map_eq_none_iff] at hnone
        rw [ih inClass hnone]
        rfl
  | @plain c text hc _ ih =>
      intro inClass hnone
      simp only [List.cons_append, untilSlash_cons _ hc] at hnone ⊢
      split
      · rfl
      · rename_i hline
        rw [if_neg hline] at hnone
        split
        · rename_i hclass
          rw [if_pos hclass, Option.map_eq_none_iff] at hnone
          rw [ih _ hnone]
          rfl
        · rename_i hclass
          rw [if_neg hclass] at hnone
          split
          · rename_i hslash
            rw [if_pos hslash] at hnone
            cases hnone
          · rename_i hslash
            rw [if_neg hslash, Option.map_eq_none_iff] at hnone
            rw [ih _ hnone]
            rfl

theorem paired_untilQuote {quote : Char} {cs : List Char} {n : Nat}
    (h : untilQuote quote cs = some n) : Paired (cs.take n) := by
  fun_induction untilQuote quote cs generalizing n with
  | case1 => cases h
  | case2 => cases h
  | case3 => cases h
  | case4 c cs hline ih =>
      obtain ⟨m, hm, rfl⟩ := Option.map_eq_some_iff.mp h
      exact .escape (ih hm)
  | case5 => cases h
  | case6 c cs hlast hpair hline _ =>
      cases h
      exact .plain (ne_backslash hlast hpair) .nil
  | case7 c cs hlast hpair hline _ ih =>
      obtain ⟨m, hm, rfl⟩ := Option.map_eq_some_iff.mp h
      exact .plain (ne_backslash hlast hpair) (ih hm)

theorem paired_untilTemplateEnd {cs : List Char} {n : Nat} {stop : TemplateEnd}
    (h : untilTemplateEnd cs = some (n, stop)) : Paired (cs.take n) := by
  fun_induction untilTemplateEnd cs generalizing n with
  | case1 => cases h
  | case2 =>
      cases h
      exact .plain (by decide) .nil
  | case3 =>
      cases h
      exact .plain (by decide) (.plain (by decide) .nil)
  | case4 => cases h
  | case5 c cs ih =>
      obtain ⟨⟨m, stop⟩, hm, heq⟩ := Option.map_eq_some_iff.mp h
      cases heq
      exact .escape (ih hm)
  | case6 c cs _ _ hlast hpair ih =>
      obtain ⟨⟨m, stop⟩, hm, heq⟩ := Option.map_eq_some_iff.mp h
      cases heq
      exact .plain (ne_backslash hlast hpair) (ih hm)

theorem paired_untilSlash {inClass : Bool} {cs : List Char} {n : Nat}
    (h : untilSlash inClass cs = some n) : Paired (cs.take n) := by
  fun_induction untilSlash inClass cs generalizing n with
  | case1 => cases h
  | case2 => cases h
  | case3 => cases h
  | case4 inClass c cs hline ih =>
      obtain ⟨m, hm, rfl⟩ := Option.map_eq_some_iff.mp h
      exact .escape (ih hm)
  | case5 => cases h
  | case6 c cs hlast hpair hline ih =>
      obtain ⟨m, hm, rfl⟩ := Option.map_eq_some_iff.mp h
      exact .plain (ne_backslash hlast hpair) (ih hm)
  | case7 inClass c cs hlast hpair hline hclass hslash =>
      cases h
      exact .plain (ne_backslash hlast hpair) .nil
  | case8 inClass c cs hlast hpair hline hclass hslash ih =>
      obtain ⟨m, hm, rfl⟩ := Option.map_eq_some_iff.mp h
      exact .plain (ne_backslash hlast hpair) (ih hm)

theorem not_mem_take_runLength (inClass : Char → Bool) (h : inClass '\\' = false)
    (cs : List Char) : '\\' ∉ cs.take (runLength inClass cs) := by
  rw [(Piece.takeWhile_run inClass cs).1]
  intro hmem
  rw [List.mem_takeWhile_imp hmem] at h
  cases h

theorem not_mem_take_hexLength (cs : List Char) : '\\' ∉ cs.take (hexLength cs) := by
  rcases cs with _ | ⟨c, _ | ⟨x, cs⟩⟩
  · simp
  · simp [hexLength]
  · rw [hexLength_cons_cons]
    split
    · rename_i hmark
      obtain ⟨rfl, hx, -⟩ := hmark
      have hdigits := not_mem_take_runLength isHexDigit (by decide) cs
      rcases hx with rfl | rfl <;> simpa using hdigits
    · simp

theorem not_mem_take_exponentLength (cs : List Char) : '\\' ∉ cs.take (exponentLength cs) := by
  rcases cs with _ | ⟨e, cs⟩
  · simp
  · rw [exponentLength_cons]
    split
    · rename_i hmark
      have hdigits := not_mem_take_runLength isDigit (by decide)
        (cs.drop (signLength cs))
      have hsign : '\\' ∉ cs.take (signLength cs) := by
        rcases cs with _ | ⟨c, cs⟩
        · simp
        · rw [signLength]
          split
          · rename_i hc
            simp only [Bool.or_eq_true, beq_iff_eq] at hc
            rcases hc with rfl | rfl <;> simp
          · simp
      have he : '\\' ≠ e := by rcases hmark.1 with rfl | rfl <;> decide
      rw [Nat.add_assoc, Nat.add_comm 1, List.take_succ_cons, List.take_add]
      simp [he, hsign, hdigits]
    · simp

theorem not_mem_take_mantissaLength (cs : List Char) : '\\' ∉ cs.take (mantissaLength cs) := by
  have hwhole := not_mem_take_runLength isDigit (by decide) cs
  rw [mantissaLength_eq]
  rcases hrest : cs.drop (runLength isDigit cs) with _ | ⟨d, rest⟩
  · exact hwhole
  by_cases hd : d = '.'
  · subst hd
    have hfraction := not_mem_take_runLength isDigit (by decide) rest
    rw [mantissaFrom_point]
    split
    · simp
    · rw [Nat.add_assoc, Nat.add_comm 1, List.take_add, hrest, List.take_succ_cons]
      simp [hwhole, hfraction]
  · rw [mantissaFrom_of_ne _ (by simpa using hd)]
    exact hwhole

theorem not_mem_take_numberLength (cs : List Char) : '\\' ∉ cs.take (numberLength cs) := by
  rw [numberLength_eq]
  split
  · rw [decimalLength_eq]
    split
    · simp
    · rw [List.take_add, List.mem_append, not_or]
      exact ⟨not_mem_take_mantissaLength cs, not_mem_take_exponentLength _⟩
  · exact not_mem_take_hexLength cs

/-! ### Gaps in front of a slash -/

/-- Blanks do not count for the end of a regular expression, unless they end the
line. -/
theorem untilSlash_blanks {blanks : List Char} (hblank : ∀ c ∈ blanks, isBlank c = true)
    (inClass : Bool) (rest : List Char) :
    untilSlash inClass (blanks ++ rest) = none ↔
      '\n' ∈ blanks ∨ untilSlash inClass rest = none := by
  induction blanks with
  | nil => simp
  | cons c blanks ih =>
      have hc := hblank c List.mem_cons_self
      have ih := ih fun d hd => hblank d (List.mem_cons_of_mem _ hd)
      have hplain : c ≠ '\\' := ne_of_blank hc (by decide)
      have hclose : (c != ']') = true := bne_iff_ne.mpr (ne_of_blank hc (by decide))
      have hopen : (c == '[') = false := beq_false_of_ne (ne_of_blank hc (by decide))
      have hslash : c ≠ '/' := ne_of_blank hc (by decide)
      rw [List.cons_append, untilSlash_cons _ hplain]
      by_cases hline : c = '\n'
      · simp [hline]
      · cases inClass <;> simp [hline, Ne.symm hline, hclose, hopen, hslash, ih]

/-- A block comment on one line that holds no closing slash stands in a class
which stays open behind it. -/
theorem untilSlash_block {body : List Char} (hline : '\n' ∉ body) {inClass : Bool}
    {rest : List Char} (h : untilSlash inClass (body ++ '*' :: '/' :: rest) = none) :
    untilSlash true rest = none := by
  match body with
  | [] =>
      cases inClass with
      | false => simp [untilSlash_cons] at h
      | true => simpa [untilSlash_cons] using h
  | c :: body =>
      by_cases hc : c = '\\'
      · subst hc
        cases body with
        | nil =>
            cases inClass with
            | false => simp [untilSlash] at h
            | true => simpa [untilSlash] using h
        | cons d body =>
            simp only [List.mem_cons, not_or] at hline
            have hd : (d == '\n') = false := beq_false_of_ne (Ne.symm hline.2.1)
            simp only [List.cons_append, untilSlash, hd, Bool.false_eq_true, if_false,
              Option.map_eq_none_iff] at h
            exact untilSlash_block hline.2.2 h
      · rw [List.mem_cons, not_or] at hline
        have hn : (c == '\n') = false := beq_false_of_ne (Ne.symm hline.1)
        simp only [List.cons_append, untilSlash_cons _ hc, hn, Bool.false_eq_true, if_false] at h
        split at h
        · exact untilSlash_block hline.2 (Option.map_eq_none_iff.mp h)
        · split at h
          · cases h
          · exact untilSlash_block hline.2 (Option.map_eq_none_iff.mp h)
termination_by body.length

theorem KeepsOpen.gap {text rest : List Char} (hgap : Piece.Gap text rest) (hline : '\n' ∉ text) :
    KeepsOpen (text ++ rest) rest := by
  intro inClass hnone
  cases hgap with
  | blanks _ hblank =>
      rw [untilSlash_blanks hblank] at hnone
      exact hnone.resolve_left hline
  | line _ hends =>
      cases rest with
      | nil => rfl
      | cons c rest =>
          obtain rfl := hends c rfl
          simp [untilSlash_cons]
  | @block body _ _ =>
      have hbody : '\n' ∉ body := by
        intro hmem
        exact hline (by simp [hmem])
      cases inClass with
      | false => simp [untilSlash_cons] at hnone
      | true =>
          have hopening : '\n' ∉ '/' :: '*' :: body := by simpa using hbody
          have hwhole : untilSlash true ('/' :: '*' :: body ++ '*' :: '/' :: rest) = none := by
            simpa using hnone
          exact untilSlash_block hopening hwhole

end Lexeme

namespace Piece

open Text Lexeme

/-! ### Lexemes -/

theorem operators_solid : ∀ entry ∈ TokenKind.operators, entry.1.toList ≠ [] ∧
    '\\' ∉ entry.1.toList ∧ entry.1.toList.any isBlank = false := by
  decide

theorem of_operatorExtent_text {c : Char} {cs : List Char} {found : Extent}
    (h : operatorExtent c cs = .ok found) :
    ∃ text kind, TokenKind.operators.find? (fun entry => entry.1.toList.isPrefixOf (c :: cs)) =
        some (text, kind) ∧ found = ⟨some kind, text.length - 1⟩ ∧
      text.toList = c :: cs.take (text.length - 1) := by
  unfold operatorExtent at h
  split at h
  · rename_i text kind hfind
    cases h
    refine ⟨text, kind, hfind, rfl, ?_⟩
    have hmatch := List.find?_some hfind
    dsimp only at hmatch
    obtain ⟨after, hafter⟩ := List.isPrefixOf_iff_prefix.mp hmatch
    have hne := (operators_solid _ (List.mem_of_find?_eq_some hfind)).1
    obtain ⟨d, more, hmore⟩ := List.exists_cons_of_ne_nil hne
    dsimp only at hmore
    have hlength : text.length - 1 = more.length := by
      rw [← String.length_toList, hmore]
      rfl
    rw [hmore, List.cons_append] at hafter
    obtain ⟨rfl, rfl⟩ := List.cons.inj hafter
    rw [hmore, hlength, List.take_left]
  · cases h

theorem paired_operatorExtent {c : Char} {cs : List Char} {found : Extent}
    (h : operatorExtent c cs = .ok found) : Paired (c :: cs.take found.more) := by
  obtain ⟨text, kind, hfind, rfl, htext⟩ := of_operatorExtent_text h
  rw [← htext]
  exact .of_not_mem (operators_solid _ (List.mem_of_find?_eq_some hfind)).2.1

theorem prefix_of_solid {text entry out : List Char} (hsolid : entry.any isBlank = false)
    (hout : StartsBlank out) (h : entry <+: text ++ out) : entry <+: text := by
  by_cases hlength : entry.length ≤ text.length
  · exact List.prefix_of_prefix_length_le h (List.prefix_append text out) hlength
  · have hle : text.length ≤ entry.length := by omega
    obtain ⟨more, rfl⟩ := List.prefix_of_prefix_length_le (List.prefix_append text out) h hle
    rw [List.prefix_append_right_inj] at h
    cases more with
    | nil => simp
    | cons d more =>
        obtain ⟨after, rfl⟩ := h
        exact absurd (hout d rfl) (List.any_eq_false.mp hsolid d (by simp))

theorem operatorExtent_seam {c : Char} {cs out : List Char} {found : Extent}
    (h : operatorExtent c cs = .ok found) (hout : StartsBlank out) :
    operatorExtent c (cs.take found.more ++ out) = .ok found := by
  obtain ⟨text, kind, hfind, rfl, htext⟩ := of_operatorExtent_text h
  obtain ⟨hmatch, before, after, hsplit, hearlier⟩ := List.find?_eq_some_iff_append.mp hfind
  have hseam : c :: (cs.take (text.length - 1) ++ out) = text.toList ++ out := by
    rw [htext]
    rfl
  have hsame : TokenKind.operators.find?
      (fun entry => entry.1.toList.isPrefixOf (c :: (cs.take (text.length - 1) ++ out))) =
        some (text, kind) := by
    rw [hseam]
    refine List.find?_eq_some_iff_append.mpr ⟨?_, before, after, hsplit, fun entry hentry => ?_⟩
    · exact List.isPrefixOf_iff_prefix.mpr (List.prefix_append _ _)
    · -- An earlier operator that matches now would have matched before.
      have hmem : entry ∈ TokenKind.operators := by
        rw [hsplit]
        exact List.mem_append_left _ hentry
      have hbefore := hearlier entry hentry
      simp only [Bool.not_eq_true', Bool.eq_false_iff, ne_eq, List.isPrefixOf_iff_prefix]
        at hbefore ⊢
      intro hprefix
      apply hbefore
      have htaken := prefix_of_solid (operators_solid entry hmem).2.2 hout hprefix
      exact htaken.trans (List.isPrefixOf_iff_prefix.mp hmatch)
  rw [operatorExtent, hsame]

theorem templateExtent_seam {ended opened : TokenKind} {cs : List Char} {found : Extent}
    (h : templateExtent ended opened cs = .ok found) (out : List Char) :
    templateExtent ended opened (cs.take found.more ++ out) = .ok found := by
  unfold templateExtent at h
  split at h
  · rename_i hstop
    cases h
    rw [templateExtent, (untilTemplateEnd_seam hstop out).2]
  · rename_i hstop
    cases h
    rw [templateExtent, (untilTemplateEnd_seam hstop out).2]
  · cases h

theorem of_regexLength? {cs : List Char} {n : Nat} (h : regexLength? cs = some n) :
    ∃ m, untilSlash false cs = some m ∧ m ≠ 1 ∧ n = m + runLength isLetter (cs.drop m) := by
  unfold regexLength? at h
  split at h
  · cases h
  · cases h
  · rename_i m hne hm
    cases h
    exact ⟨m, hm, hne, rfl⟩

theorem untilSlash_of_regexLength? {cs : List Char} (h : regexLength? cs = none)
    (hslash : cs.head? ≠ some '/') : untilSlash false cs = none := by
  unfold regexLength? at h
  split at h
  · assumption
  · rename_i hone
    rcases cs with _ | ⟨c, cs⟩
    · cases hone
    by_cases hc : c = '\\'
    · subst hc
      rcases cs with _ | ⟨d, cs⟩
      · cases hone
      · simp only [untilSlash] at hone
        split at hone
        · cases hone
        · obtain ⟨n, -, hn⟩ := Option.map_eq_some_iff.mp hone
          omega
    · have hne : (c == '/') = false := by
        apply beq_false_of_ne
        rintro rfl
        exact hslash rfl
      rw [untilSlash_cons _ hc] at hone
      simp only [hne, Bool.false_eq_true, if_false] at hone
      split at hone
      · cases hone
      · obtain ⟨n, hn, hzero⟩ := Option.map_eq_some_iff.mp hone
        obtain rfl : n = 0 := by omega
        exact absurd (untilSlash_seam hn []).1.1 (Nat.lt_irrefl 0)
  · cases h

theorem regexLength?_seam {cs out : List Char} {n : Nat} (h : regexLength? cs = some n)
    (hout : StartsBlank out) : regexLength? (cs.take n ++ out) = some n := by
  obtain ⟨m, hm, hne, rfl⟩ := of_regexLength? h
  have hflags := steady_runLength (fun _ => not_isBlank_of_isLetter) (cs.drop m) out _
    (Nat.le_refl _) hout
  rw [List.take_add, List.append_assoc]
  have hpattern := (untilSlash_seam hm ((cs.drop m).take (runLength isLetter (cs.drop m)) ++ out)).2
  have hlength : (cs.take m).length = m := List.length_take_of_le ((untilSlash_seam hm []).1.2)
  rw [regexLength?, hpattern]
  split
  · cases ‹_›
  · rename_i hone
    exact absurd (Option.some.inj hone) hne
  · rename_i k _ hk
    obtain rfl := Option.some.inj hk
    rw [List.drop_left' hlength]
    exact congrArg (fun flags => some (m + flags)) hflags

theorem paired_regexLength? {cs : List Char} {n : Nat} (h : regexLength? cs = some n) :
    Paired (cs.take n) := by
  obtain ⟨m, hm, -, rfl⟩ := of_regexLength? h
  rw [List.take_add]
  have hflags := not_mem_take_runLength isLetter (by decide) (cs.drop m)
  exact (paired_untilSlash hm).append (.of_not_mem hflags)

theorem regexLength?_le {cs : List Char} {n : Nat} (h : regexLength? cs = some n) :
    n ≤ cs.length := by
  obtain ⟨m, hm, -, rfl⟩ := of_regexLength? h
  have hpattern := (untilSlash_seam hm []).1.2
  have hflags := runLength_le isLetter (cs.drop m)
  rw [List.length_drop] at hflags
  omega

theorem slashExtent_of_head {context : Context} {cs : List Char} (hslash : cs.head? ≠ some '/')
    (hstar : cs.head? ≠ some '*') :
    slashExtent context cs =
      match if context.regexAllowed then regexLength? cs else none with
      | some n => .ok ⟨some .regex, n⟩
      | none => operatorExtent '/' cs := by
  unfold slashExtent
  split
  · exact absurd rfl hslash
  · exact absurd rfl hstar
  · rfl

theorem head?_take_append {cs out : List Char} {n : Nat} {c : Char}
    (h : (cs.take n ++ out).head? = some c) : cs.head? = some c ∨ out.head? = some c := by
  rcases cs with _ | ⟨d, cs⟩
  · exact .inr (by simpa using h)
  · rcases n with _ | n
    · exact .inr (by simpa using h)
    · exact .inl (by simpa using h)

theorem slashExtent_seam {context : Context} {cs out : List Char} {kind : TokenKind} {more : Nat}
    (h : slashExtent context cs = .ok ⟨some kind, more⟩) (hout : StartsBlank out)
    (hopen : KeepsOpen (cs.drop more) out) :
    slashExtent context (cs.take more ++ out) = .ok ⟨some kind, more⟩ := by
  have hhead : ∀ c : Char, isBlank c = false → cs.head? ≠ some c →
      (cs.take more ++ out).head? ≠ some c := by
    intro c hc hne hhead
    rcases head?_take_append hhead with hcs | hblank
    · exact hne hcs
    · rw [hout c hblank] at hc
      cases hc
  by_cases hslash : cs.head? = some '/'
  · obtain ⟨rest, rfl⟩ := List.head?_eq_some_iff.mp hslash
    cases h
  by_cases hstar : cs.head? = some '*'
  · obtain ⟨rest, rfl⟩ := List.head?_eq_some_iff.mp hstar
    simp only [slashExtent] at h
    split at h <;> cases h
  rw [slashExtent_of_head hslash hstar] at h
  rw [slashExtent_of_head (hhead _ (by decide) hslash) (hhead _ (by decide) hstar)]
  cases hallowed : context.regexAllowed with
  | false =>
      rw [hallowed] at h
      exact operatorExtent_seam h hout
  | true =>
      rw [hallowed] at h
      simp only [if_true] at h ⊢
      cases hregex : regexLength? cs with
      | some n =>
          rw [hregex] at h
          cases h
          rw [regexLength?_seam hregex hout]
      | none =>
          rw [hregex] at h
          -- The rest of the line still holds no closing slash.
          have hpaired : Paired (cs.take more) := (paired_operatorExtent h).tail (by decide)
          have hkept := hopen.prepend hpaired false
          rw [List.take_append_drop] at hkept
          have hnone : regexLength? (cs.take more ++ out) = none := by
            rw [regexLength?, hkept (untilSlash_of_regexLength? hregex hslash)]
          rw [hnone]
          exact operatorExtent_seam h hout

/-- What a lexeme is and how far it reaches does not change if what follows it is
exchanged for a text that starts with a blank, as long as a slash that starts no
regular expression cannot start one now. -/
theorem extent_seam {context : Context} {c : Char} {cs out : List Char} {kind : TokenKind}
    {more : Nat} (h : extent context c cs = .ok ⟨some kind, more⟩) (hout : StartsBlank out)
    (hopen : KeepsOpen (cs.drop more) out) :
    extent context c (cs.take more ++ out) = .ok ⟨some kind, more⟩ := by
  unfold extent at h ⊢
  split at h
  · rename_i hword
    cases h
    have htail := takeWhile_seam (fun _ => not_isBlank_of_isWordPart) cs hout
    rw [runLength] at htail
    rw [if_pos hword, htail]
  rename_i hword
  split at h
  · cases h
  rename_i hblank
  rw [if_neg hword, if_neg hblank]
  have hcons : c :: (cs.take more ++ out) = (c :: cs).take (more + 1) ++ out := rfl
  split at h
  · rename_i n hnumber
    cases h
    have hsame := steady_numberLength (c :: cs) out (more + 1) (by omega) hout
    rw [← hcons, hnumber] at hsame
    rw [hsame]
  · rename_i hnumber
    have hsame := steady_numberLength (c :: cs) out (more + 1) (by omega) hout
    rw [← hcons, hnumber] at hsame
    rw [hsame]
    dsimp only
    split at h
    · split at h
      · cases h
        rw [(untilQuote_seam ‹_› out).2]
      · cases h
    · split at h
      · cases h
        rw [(untilQuote_seam ‹_› out).2]
      · cases h
    · exact templateExtent_seam h out
    · exact slashExtent_seam h hout hopen
    · split at h
      · rename_i hcloses
        rw [if_pos hcloses]
        exact templateExtent_seam h out
      · rename_i hcloses
        rw [if_neg hcloses]
        exact operatorExtent_seam h hout
    · exact operatorExtent_seam h hout

theorem operatorExtent_le {c : Char} {cs : List Char} {found : Extent}
    (h : operatorExtent c cs = .ok found) : found.more ≤ cs.length := by
  obtain ⟨text, kind, -, rfl, htext⟩ := of_operatorExtent_text h
  have hlength := congrArg List.length htext
  rw [String.length_toList, List.length_cons, List.length_take] at hlength
  dsimp only
  omega

/-- What a lexeme at the start of a text is, and how far it reaches. -/
inductive Reaches (context : Context) : Char → List Char → TokenKind → Nat → Prop where
  | word {c : Char} {cs : List Char} {kind : TokenKind} (hstart : isWordStart c = true) :
      Reaches context c cs kind (runLength isWordPart cs)
  | number {c : Char} {cs : List Char} {more : Nat} (hblank : isBlank c = false)
      (hnumber : numberLength (c :: cs) = more + 1) : Reaches context c cs .number more
  | string {quote : Char} {cs : List Char} {more : Nat} (hquote : quote = '"' ∨ quote = '\'')
      (hends : untilQuote quote cs = some more) : Reaches context quote cs .string more
  | template {c : Char} {cs : List Char} {kind : TokenKind} {more : Nat} {stop : TemplateEnd}
      (hopens : c = '`' ∨ c = '}') (hends : untilTemplateEnd cs = some (more, stop)) :
      Reaches context c cs kind more
  | regex {cs : List Char} {more : Nat} (hends : regexLength? cs = some more) :
      Reaches context '/' cs .regex more
  | operator {c : Char} {cs : List Char} {kind : TokenKind} {more : Nat}
      (hblank : isBlank c = false) (hfound : operatorExtent c cs = .ok ⟨some kind, more⟩) :
      Reaches context c cs kind more

section Reach

variable {context : Context} {c : Char} {cs : List Char} {kind : TokenKind} {more : Nat}

theorem untilTemplateEnd_of_templateExtent {ended opened : TokenKind}
    (h : templateExtent ended opened cs = .ok ⟨some kind, more⟩) :
    ∃ stop, untilTemplateEnd cs = some (more, stop) := by
  unfold templateExtent at h
  split at h <;> cases h
  · exact ⟨_, ‹_›⟩
  · exact ⟨_, ‹_›⟩

theorem reaches_of_slashExtent (h : slashExtent context cs = .ok ⟨some kind, more⟩) :
    Reaches context '/' cs kind more := by
  unfold slashExtent at h
  split at h
  · cases h
  · split at h <;> cases h
  split at h
  · rename_i n hregex
    cases h
    split at hregex
    · exact .regex hregex
    · cases hregex
  · exact .operator (by decide) h

theorem reaches_of_extent (h : extent context c cs = .ok ⟨some kind, more⟩) :
    Reaches context c cs kind more := by
  unfold extent at h
  split at h
  · cases h
    exact .word ‹_›
  split at h
  · cases h
  rename_i hblank
  have hblank : isBlank c = false := Bool.eq_false_iff.mpr hblank
  split at h
  · cases h
    exact .number hblank ‹_›
  split at h
  · split at h <;> cases h
    exact .string (.inl rfl) ‹_›
  · split at h <;> cases h
    exact .string (.inr rfl) ‹_›
  · obtain ⟨stop, hends⟩ := untilTemplateEnd_of_templateExtent h
    exact .template (.inl rfl) hends
  · exact reaches_of_slashExtent h
  · split at h
    · obtain ⟨stop, hends⟩ := untilTemplateEnd_of_templateExtent h
      exact .template (.inr rfl) hends
    · exact .operator hblank h
  · exact .operator hblank h

theorem paired_extent (h : extent context c cs = .ok ⟨some kind, more⟩) :
    Paired (c :: cs.take more) := by
  cases reaches_of_extent h with
  | word hstart =>
      refine .plain ?_ (.of_not_mem (not_mem_take_runLength isWordPart (by decide) cs))
      rintro rfl
      exact absurd hstart (by decide)
  | number _ hnumber =>
      have hplain := not_mem_take_numberLength (c :: cs)
      rw [hnumber] at hplain
      exact .of_not_mem hplain
  | string hquote hends =>
      refine .plain ?_ (paired_untilQuote hends)
      rcases hquote with rfl | rfl <;> decide
  | template hopens hends =>
      refine .plain ?_ (paired_untilTemplateEnd hends)
      rcases hopens with rfl | rfl <;> decide
  | regex hends => exact .plain (by decide) (paired_regexLength? hends)
  | operator _ hfound => exact paired_operatorExtent hfound

theorem extent_le (h : extent context c cs = .ok ⟨some kind, more⟩) : more ≤ cs.length := by
  cases reaches_of_extent h with
  | word => exact runLength_le isWordPart cs
  | number _ hnumber =>
      have hle := numberLength_le (c :: cs)
      rw [hnumber, List.length_cons] at hle
      omega
  | string _ hends => exact (untilQuote_seam hends []).1
  | template _ hends => exact (untilTemplateEnd_seam hends []).1.2
  | regex hends => exact regexLength?_le hends
  | operator _ hfound => exact operatorExtent_le hfound

theorem not_isBlank_of_extent (h : extent context c cs = .ok ⟨some kind, more⟩) :
    isBlank c = false := by
  cases reaches_of_extent h with
  | word hstart => exact not_isBlank_of_isWordPart (by simp [isWordPart, hstart])
  | number hblank | operator hblank => exact hblank
  | string hquote => rcases hquote with rfl | rfl <;> decide
  | template hopens => rcases hopens with rfl | rfl <;> decide
  | regex => decide

end Reach

/-- A run of blanks that is not empty is a piece of its own in front of anything
else. -/
theorem extent_blanks {context : Context} {c : Char} {blanks rest : List Char}
    (hblank : ∀ d ∈ c :: blanks, isBlank d = true) (hrest : ∀ d ∈ rest.head?, isBlank d = false) :
    extent context c (blanks ++ rest) = .ok ⟨none, blanks.length⟩ := by
  have hc := hblank c List.mem_cons_self
  have hword : isWordStart c = false := by
    rcases h : isWordStart c with _ | _
    · rfl
    · rw [not_isBlank_of_isWordPart (by simp [isWordPart, h])] at hc
      cases hc
  have hrun : runLength isBlank (blanks ++ rest) = blanks.length := by
    rw [runLength, List.takeWhile_append_of_pos fun d hd => hblank d (List.mem_cons_of_mem _ hd)]
    rcases rest with _ | ⟨d, rest⟩
    · simp
    · simp [hrest d rfl]
  unfold extent
  simp [hword, hc, hrun]

end Piece

end ScriptKinds
