import ScriptKinds.Proofs.Lexeme.Continued

namespace ScriptKinds

namespace Lexeme

open Text

section Prefix

variable {part cs : List Char} {n : Nat}

theorem take_append_drop_of_initial (hpart : part <+: cs) (hle : n ≤ part.length) :
    cs.take n ++ part.drop n = part := by
  obtain ⟨rest, rfl⟩ := hpart
  rw [List.take_append_of_le_length hle, List.take_append_drop]

theorem takeWhile_of_initial {inClass : Char → Bool} (hpart : part <+: cs)
    (hle : runLength inClass cs ≤ part.length) :
    part.takeWhile inClass = cs.takeWhile inClass := by
  obtain ⟨rest, rfl⟩ := hpart
  rw [runLength, List.takeWhile_append] at hle
  rw [List.takeWhile_append]
  split at hle
  · rename_i hwhole
    rw [List.length_append] at hle
    have hnone : rest.takeWhile inClass = [] := List.eq_nil_of_length_eq_zero (by omega)
    rw [if_pos hwhole, hnone, List.append_nil, (List.takeWhile_prefix _).eq_of_length hwhole]
  · rename_i hends
    rw [if_neg hends]

theorem runLength_of_initial {inClass : Char → Bool} (hpart : part <+: cs)
    (hle : runLength inClass cs ≤ part.length) :
    runLength inClass part = runLength inClass cs := by
  rw [runLength, runLength, takeWhile_of_initial hpart hle]

theorem numberLength_of_initial (hpart : part <+: cs) (hle : numberLength cs ≤ part.length) :
    numberLength part = numberLength cs := by
  have hsame := steady_numberLength cs [] part.length hle nofun
  rwa [List.append_nil, ← List.prefix_iff_eq_take.mp hpart] at hsame

theorem untilQuote_of_initial {quote : Char} (hpart : part <+: cs) (hle : n ≤ part.length)
    (h : untilQuote quote cs = some n) : untilQuote quote part = some n := by
  have hseam := (untilQuote_seam h (part.drop n)).2
  rwa [take_append_drop_of_initial hpart hle] at hseam

theorem untilCommentEnd_seam (h : untilCommentEnd cs = some n) (out : List Char) :
    2 ≤ n ∧ untilCommentEnd (cs.take n ++ out) = some n := by
  fun_induction untilCommentEnd cs generalizing n with
  | case1 => cases h
  | case2 cs =>
      cases h
      exact ⟨Nat.le_refl 2, rfl⟩
  | case3 c cs hopen ih =>
      obtain ⟨m, hm, rfl⟩ := Option.map_eq_some_iff.mp h
      obtain ⟨hle, hrest⟩ := ih hm
      refine ⟨by omega, ?_⟩
      rw [List.take_succ_cons, List.cons_append, untilCommentEnd, hrest]
      · rfl
      · intro behind hstar hslash
        cases cs with
        | nil => simp [untilCommentEnd] at hm
        | cons d cs =>
            obtain ⟨k, rfl⟩ := Nat.exists_eq_add_one_of_ne_zero (show m ≠ 0 by omega)
            obtain ⟨rfl, -⟩ := List.cons.inj hslash
            exact hopen cs hstar rfl

theorem untilCommentEnd_of_initial (hpart : part <+: cs) (hle : n ≤ part.length)
    (h : untilCommentEnd cs = some n) : untilCommentEnd part = some n := by
  have hseam := (untilCommentEnd_seam h (part.drop n)).2
  rwa [take_append_drop_of_initial hpart hle] at hseam

theorem regexLength?_of_initial (hpart : part <+: cs) (hle : n ≤ part.length)
    (h : regexLength? cs = some n) : regexLength? part = some n := by
  obtain ⟨m, hm, hne, rfl⟩ := Piece.of_regexLength? h
  have hpattern := (untilSlash_seam hm (part.drop m)).2
  rw [take_append_drop_of_initial hpart (by omega)] at hpattern
  have hbehind : part.drop m <+: cs.drop m := by
    obtain ⟨rest, rfl⟩ := hpart
    rw [List.drop_append_of_le_length (by omega)]
    exact List.prefix_append _ _
  have hflags : runLength isLetter (part.drop m) = runLength isLetter (cs.drop m) := by
    apply runLength_of_initial hbehind
    rw [List.length_drop]
    omega
  rw [regexLength?, hpattern]
  split
  · cases ‹_›
  · rename_i hone
    exact absurd (Option.some.inj hone) hne
  · rename_i k _ hk
    obtain rfl := Option.some.inj hk
    exact congrArg (fun flags => some (m + flags)) hflags

/-- A regular expression in the beginning of a text is one in the text, where it may
have more flags. -/
theorem regexLength?_eq_none_of_initial (hpart : part <+: cs) (h : regexLength? cs = none) :
    regexLength? part = none := by
  obtain ⟨rest, rfl⟩ := hpart
  cases hregex : regexLength? part with
  | none => rfl
  | some n =>
      obtain ⟨m, hm, hne, -⟩ := Piece.of_regexLength? hregex
      have hslash := untilSlash_append hm rest
      unfold regexLength? at h
      split at h
      · rename_i hnone
        rw [hnone] at hslash
        cases hslash
      · rename_i hone
        rw [hone] at hslash
        exact absurd (Option.some.inj hslash).symm hne
      · cases h

end Prefix

end Lexeme

namespace Piece

open Text Lexeme

section Prefix

variable {context : Context} {c : Char} {part cs : List Char} {found : Extent}

theorem operatorExtent_of_initial (hpart : part <+: cs) (hle : found.more ≤ part.length)
    (h : operatorExtent c cs = .ok found) : operatorExtent c part = .ok found := by
  obtain ⟨text, kind, hfind, rfl, htext⟩ := of_operatorExtent_text h
  obtain ⟨-, before, after, hsplit, hearlier⟩ := List.find?_eq_some_iff_append.mp hfind
  have hmatch : text.toList <+: c :: part := by
    rw [htext, List.cons_prefix_cons, ← take_append_drop_of_initial hpart hle]
    exact ⟨rfl, List.prefix_append _ _⟩
  have hsame : TokenKind.operators.find? (fun entry => entry.1.toList.isPrefixOf (c :: part)) =
      some (text, kind) := by
    refine List.find?_eq_some_iff_append.mpr
      ⟨List.isPrefixOf_iff_prefix.mpr hmatch, before, after, hsplit, fun entry hentry => ?_⟩
    have hmissed := hearlier entry hentry
    simp only [Bool.not_eq_true', Bool.eq_false_iff, ne_eq, List.isPrefixOf_iff_prefix]
      at hmissed ⊢
    exact fun hinitial => hmissed (hinitial.trans (List.cons_prefix_cons.mpr ⟨rfl, hpart⟩))
  rw [operatorExtent, hsame]

theorem templateExtent_of_initial {ended opened : TokenKind} (hpart : part <+: cs)
    (hle : found.more ≤ part.length) (h : templateExtent ended opened cs = .ok found) :
    templateExtent ended opened part = .ok found := by
  have hseam := templateExtent_seam h (part.drop found.more)
  rwa [take_append_drop_of_initial hpart hle] at hseam

theorem head?_ne_of_initial (hpart : part <+: cs) (h : cs.head? ≠ some c) :
    part.head? ≠ some c := by
  intro hhead
  obtain ⟨others, rfl⟩ := List.head?_eq_some_iff.mp hhead
  obtain ⟨rest, rfl⟩ := hpart
  exact h rfl

theorem slashExtent_of_initial (hpart : part <+: cs) (hle : found.more ≤ part.length)
    (h : slashExtent context cs = .ok found) : slashExtent context part = .ok found := by
  by_cases hslash : cs.head? = some '/'
  · obtain ⟨body, rfl⟩ := List.head?_eq_some_iff.mp hslash
    cases h
    have hpos : 0 < runLength (· != '\n') ('/' :: body) := by simp [runLength]
    obtain ⟨d, others, rfl⟩ := List.exists_cons_of_ne_nil
      (List.length_pos_iff.mp (Nat.lt_of_lt_of_le hpos hle))
    obtain ⟨rfl, -⟩ := List.cons_prefix_cons.mp hpart
    rw [slashExtent, runLength_of_initial hpart hle]
  by_cases hstar : cs.head? = some '*'
  · obtain ⟨body, rfl⟩ := List.head?_eq_some_iff.mp hstar
    simp only [slashExtent] at h
    split at h
    · rename_i n hends
      cases h
      obtain ⟨d, others, rfl⟩ := List.exists_cons_of_ne_nil
        (List.length_pos_iff.mp (Nat.lt_of_lt_of_le (Nat.succ_pos n) hle))
      obtain ⟨rfl, hothers⟩ := List.cons_prefix_cons.mp hpart
      simp [slashExtent, untilCommentEnd_of_initial hothers (Nat.le_of_succ_le_succ hle) hends]
    · cases h
  rw [slashExtent_of_head hslash hstar] at h
  rw [slashExtent_of_head (head?_ne_of_initial hpart hslash) (head?_ne_of_initial hpart hstar)]
  cases hallowed : context.regexAllowed with
  | false =>
      rw [hallowed] at h
      exact operatorExtent_of_initial hpart hle h
  | true =>
      rw [hallowed] at h
      simp only [if_true] at h ⊢
      cases hregex : regexLength? cs with
      | some n =>
          rw [hregex] at h
          cases h
          rw [regexLength?_of_initial hpart hle hregex]
      | none =>
          rw [hregex] at h
          rw [regexLength?_eq_none_of_initial hpart hregex]
          exact operatorExtent_of_initial hpart hle h

theorem extent_of_initial (hpart : part <+: cs) (hle : found.more ≤ part.length)
    (h : extent context c cs = .ok found) : extent context c part = .ok found := by
  have hwhole : c :: part <+: c :: cs := List.cons_prefix_cons.mpr ⟨rfl, hpart⟩
  unfold extent at h ⊢
  split at h
  · rename_i hword
    cases h
    rw [if_pos hword, takeWhile_of_initial hpart hle]
  rename_i hword
  rw [if_neg hword]
  split at h
  · rename_i hblank
    cases h
    rw [if_pos hblank, runLength_of_initial hpart hle]
  rename_i hblank
  rw [if_neg hblank]
  split at h
  · rename_i n hnumber
    cases h
    rw [numberLength_of_initial hwhole (by rw [hnumber]; exact Nat.succ_le_succ hle), hnumber]
  rename_i hnumber
  rw [numberLength_of_initial hwhole (by rw [hnumber]; exact Nat.zero_le _), hnumber]
  dsimp only
  split at h
  · split at h
    · rename_i n hends
      cases h
      rw [untilQuote_of_initial hpart hle hends]
    · cases h
  · split at h
    · rename_i n hends
      cases h
      rw [untilQuote_of_initial hpart hle hends]
    · cases h
  · exact templateExtent_of_initial hpart hle h
  · exact slashExtent_of_initial hpart hle h
  · split at h
    · rename_i hcloses
      rw [if_pos hcloses]
      exact templateExtent_of_initial hpart hle h
    · rename_i hcloses
      rw [if_neg hcloses]
      exact operatorExtent_of_initial hpart hle h
  · exact operatorExtent_of_initial hpart hle h

theorem more_le_length (h : extent context c cs = .ok found) : found.more ≤ cs.length := by
  obtain ⟨kind?, more⟩ := found
  cases kind? with
  | some kind => exact extent_le h
  | none =>
      cases hblank : isBlank c with
      | false => exact slashExtent_gap_le (slashExtent_of_gap hblank h).2
      | true =>
          unfold extent at h
          split at h
          · cases h
          cases h
          exact runLength_le isBlank cs

end Prefix

end Piece

end ScriptKinds
