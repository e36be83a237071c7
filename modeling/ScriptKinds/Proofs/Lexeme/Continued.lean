import ScriptKinds.Proofs.Lexeme.Seam

namespace ScriptKinds

namespace Lexeme

open Text

theorem takeWhile_line {inClass : Char → Bool} (h : inClass '\n' = false) (cs rest : List Char) :
    (cs ++ '\n' :: rest).takeWhile inClass = cs.takeWhile inClass := by
  rw [List.takeWhile_append, List.takeWhile_cons, h]
  split
  · rename_i hwhole
    rw [(List.takeWhile_prefix _).eq_of_length hwhole]
    simp
  · rfl

theorem runLength_line {inClass : Char → Bool} (h : inClass '\n' = false) (cs rest : List Char) :
    runLength inClass (cs ++ '\n' :: rest) = runLength inClass cs := by
  rw [runLength, runLength, takeWhile_line h]

theorem startsBlank_line (rest : List Char) : StartsBlank ('\n' :: rest) := by
  intro c hc
  obtain rfl := Option.mem_some_iff.mp hc
  decide

theorem numberLength_line (cs rest : List Char) :
    numberLength (cs ++ '\n' :: rest) = numberLength cs := by
  have hsame := steady_numberLength cs ('\n' :: rest) cs.length (numberLength_le cs)
    (startsBlank_line rest)
  rwa [List.take_length] at hsame

theorem untilQuote_append {quote : Char} {cs : List Char} {n : Nat}
    (h : untilQuote quote cs = some n) (out : List Char) :
    untilQuote quote (cs ++ out) = some n := by
  have hseam := (untilQuote_seam h (cs.drop n ++ out)).2
  rwa [← List.append_assoc, List.take_append_drop] at hseam

theorem untilCommentEnd_append {cs : List Char} {n : Nat} (h : untilCommentEnd cs = some n)
    (out : List Char) : n ≤ cs.length ∧ untilCommentEnd (cs ++ out) = some n := by
  fun_induction untilCommentEnd cs generalizing n with
  | case1 => cases h
  | case2 cs =>
      cases h
      exact ⟨by simp, rfl⟩
  | case3 c cs hopen ih =>
      obtain ⟨m, hm, rfl⟩ := Option.map_eq_some_iff.mp h
      obtain ⟨hle, hrest⟩ := ih hm
      refine ⟨by simpa using hle, ?_⟩
      rw [List.cons_append, untilCommentEnd, hrest]
      · rfl
      · intro behind hstar hslash
        cases cs with
        | nil => simp [untilCommentEnd] at hm
        | cons d cs =>
            obtain ⟨rfl, -⟩ := List.cons.inj hslash
            exact hopen cs hstar rfl

theorem untilSlash_append {inClass : Bool} {cs : List Char} {n : Nat}
    (h : untilSlash inClass cs = some n) (out : List Char) :
    untilSlash inClass (cs ++ out) = some n := by
  have hseam := (untilSlash_seam h (cs.drop n ++ out)).2
  rwa [← List.append_assoc, List.take_append_drop] at hseam

theorem untilSlash_line {inClass : Bool} {cs : List Char} (h : untilSlash inClass cs = none)
    (rest : List Char) : untilSlash inClass (cs ++ '\n' :: rest) = none := by
  fun_induction untilSlash inClass cs with
  | case1 => rw [List.nil_append, untilSlash_cons _ (by decide), if_pos (by decide)]
  | case2 => rfl
  | case3 inClass c cs hline => simp [untilSlash, hline]
  | case4 inClass c cs hline ih =>
      simp [untilSlash, hline, ih (Option.map_eq_none_iff.mp h)]
  | case5 inClass c cs hlast hpair hline =>
      rw [List.cons_append, untilSlash_cons _ (ne_backslash hlast hpair), if_pos hline]
  | case6 c cs hlast hpair hline ih =>
      rw [List.cons_append, untilSlash_cons _ (ne_backslash hlast hpair), if_neg hline, if_pos rfl,
        ih (Option.map_eq_none_iff.mp h)]
      rfl
  | case7 => cases h
  | case8 inClass c cs hlast hpair hline hclass hslash ih =>
      rw [List.cons_append, untilSlash_cons _ (ne_backslash hlast hpair), if_neg hline,
        if_neg hclass, if_neg hslash, ih (Option.map_eq_none_iff.mp h)]
      rfl

end Lexeme

namespace Piece

open Text Lexeme

theorem operatorExtent_line (c : Char) (cs rest : List Char) :
    operatorExtent c (cs ++ '\n' :: rest) = operatorExtent c cs := by
  have hmatches : ∀ entry ∈ TokenKind.operators,
      entry.1.toList.isPrefixOf (c :: (cs ++ '\n' :: rest)) =
        entry.1.toList.isPrefixOf (c :: cs) := by
    intro entry hentry
    rw [Bool.eq_iff_iff, List.isPrefixOf_iff_prefix, List.isPrefixOf_iff_prefix]
    constructor
    · intro hprefix
      exact prefix_of_solid (operators_solid entry hentry).2.2 (startsBlank_line rest) hprefix
    · intro hprefix
      exact hprefix.trans (List.prefix_append (c :: cs) ('\n' :: rest))
  rw [operatorExtent, operatorExtent, ← List.head?_filter, ← List.head?_filter,
    List.filter_congr hmatches]

theorem templateExtent_append {ended opened : TokenKind} {cs : List Char} {found : Extent}
    (h : templateExtent ended opened cs = .ok found) (out : List Char) :
    templateExtent ended opened (cs ++ out) = .ok found := by
  have hseam := templateExtent_seam h (cs.drop found.more ++ out)
  rwa [← List.append_assoc, List.take_append_drop] at hseam

theorem regexLength?_line {cs : List Char} (hslash : cs.head? ≠ some '/') (rest : List Char) :
    regexLength? (cs ++ '\n' :: rest) = regexLength? cs := by
  cases h : regexLength? cs with
  | none => rw [regexLength?, untilSlash_line (untilSlash_of_regexLength? h hslash) rest]
  | some n =>
      obtain ⟨m, hm, hne, rfl⟩ := of_regexLength? h
      have hle := (untilSlash_seam hm []).1.2
      rw [regexLength?, untilSlash_append hm]
      split
      · cases ‹_›
      · rename_i hone
        exact absurd (Option.some.inj hone) hne
      · rename_i k _ hk
        obtain rfl := Option.some.inj hk
        rw [List.drop_append_of_le_length hle, takeWhile_line (by decide)]
        rfl

theorem slashExtent_line {context : Context} {cs : List Char} {found : Extent}
    (h : slashExtent context cs = .ok found) (rest : List Char) :
    slashExtent context (cs ++ '\n' :: rest) = .ok found := by
  by_cases hslash : cs.head? = some '/'
  · obtain ⟨body, rfl⟩ := List.head?_eq_some_iff.mp hslash
    rw [← h]
    simp only [List.cons_append, slashExtent]
    rw [← List.cons_append, runLength_line (by decide)]
  by_cases hstar : cs.head? = some '*'
  · obtain ⟨body, rfl⟩ := List.head?_eq_some_iff.mp hstar
    simp only [slashExtent] at h
    split at h
    · rename_i n hends
      simpa [slashExtent, (untilCommentEnd_append hends _).2] using h
    · cases h
  have hhead : ∀ c : Char, c ≠ '\n' → cs.head? ≠ some c → (cs ++ '\n' :: rest).head? ≠ some c := by
    intro c hc hne
    cases cs with
    | nil => simpa using hc.symm
    | cons d cs => simpa using hne
  rw [slashExtent_of_head hslash hstar] at h
  rw [slashExtent_of_head (hhead _ (by decide) hslash) (hhead _ (by decide) hstar),
    regexLength?_line hslash, operatorExtent_line]
  exact h

/-- What a piece is does not depend on the next line, unless it is a run of
blanks. -/
theorem extent_line {context : Context} {c : Char} {cs : List Char} {found : Extent}
    (hblank : isBlank c = false) (h : extent context c cs = .ok found) (rest : List Char) :
    extent context c (cs ++ '\n' :: rest) = .ok found := by
  unfold extent at h ⊢
  rw [takeWhile_line (by decide), ← List.cons_append, numberLength_line]
  split at h
  · rename_i hword
    rw [if_pos hword]
    exact h
  rename_i hword
  rw [hblank, if_neg Bool.false_ne_true] at h
  rw [if_neg hword, hblank, if_neg Bool.false_ne_true]
  split at h
  · exact h
  split at h
  · split at h
    · rename_i n hends
      rw [untilQuote_append hends]
      exact h
    · cases h
  · split at h
    · rename_i n hends
      rw [untilQuote_append hends]
      exact h
    · cases h
  · exact templateExtent_append h _
  · exact slashExtent_line h rest
  · rw [operatorExtent_line]
    split at h
    · rename_i hcloses
      rw [if_pos hcloses]
      exact templateExtent_append h _
    · rename_i hcloses
      rw [if_neg hcloses]
      exact h
  · rw [operatorExtent_line]
    exact h

theorem slashExtent_gap_le {context : Context} {cs : List Char} {more : Nat}
    (h : slashExtent context cs = .ok ⟨none, more⟩) : more ≤ cs.length := by
  by_cases hslash : cs.head? = some '/'
  · obtain ⟨body, rfl⟩ := List.head?_eq_some_iff.mp hslash
    cases h
    exact runLength_le _ _
  by_cases hstar : cs.head? = some '*'
  · obtain ⟨body, rfl⟩ := List.head?_eq_some_iff.mp hstar
    simp only [slashExtent] at h
    split at h
    · rename_i n hends
      cases h
      have hle := (untilCommentEnd_append hends []).1
      rw [List.length_cons]
      omega
    · cases h
  · rw [slashExtent_of_head hslash hstar] at h
    split at h
    · cases h
    · obtain ⟨text, kind, -, hfound, -⟩ := of_operatorExtent_text h
      cases hfound

theorem blanks_of_gap {context : Context} {c : Char} {cs : List Char} {more : Nat}
    (hblank : isBlank c = true) (h : extent context c cs = .ok ⟨none, more⟩) :
    (∀ d ∈ c :: cs.take more, isBlank d = true) ∧
      ∀ d ∈ (cs.drop more).head?, isBlank d = false := by
  unfold extent at h
  split at h
  · cases h
  cases h
  obtain ⟨htake, hends⟩ := takeWhile_run isBlank cs
  rw [htake]
  exact ⟨List.forall_mem_cons.mpr ⟨hblank, fun d hd => List.mem_takeWhile_imp hd⟩, hends⟩

theorem slashExtent_of_gap {context : Context} {c : Char} {cs : List Char} {more : Nat}
    (hblank : isBlank c = false) (h : extent context c cs = .ok ⟨none, more⟩) :
    c = '/' ∧ slashExtent context cs = .ok ⟨none, more⟩ := by
  generalize hgap : (⟨none, more⟩ : Extent) = found at h
  cases begins_of_extent h with
  | word => cases hgap
  | blanks hspace => simp [hblank] at hspace
  | number => cases hgap
  | string => cases hgap
  | template hfound =>
      subst hgap
      obtain ⟨inner, ⟨hkind, -⟩ | ⟨hkind, -⟩⟩ := of_templateExtent hfound <;> cases hkind
  | slash hfound => exact ⟨rfl, hgap ▸ hfound⟩
  | resumed _ hfound =>
      subst hgap
      obtain ⟨inner, ⟨hkind, -⟩ | ⟨hkind, -⟩⟩ := of_templateExtent hfound <;> cases hkind
  | operator _ hfound =>
      obtain ⟨text, kind, -, rfl, -⟩ := of_operatorExtent_text hfound
      cases hgap

/-! ### What earlier lines decide -/

section Context

variable {context other : Context} {c : Char} {cs : List Char} {found : Extent}

/-- What starts with a slash at the beginning of a source starts with the same
piece behind other tokens, unless it is a regular expression where none may
stand. -/
theorem slashExtent_congr (hallowed : context.regexAllowed = true)
    (hregex : found.kind? = some .regex → other.regexAllowed = true)
    (h : slashExtent context cs = .ok found) : slashExtent other cs = .ok found := by
  by_cases hslash : cs.head? = some '/'
  · obtain ⟨body, rfl⟩ := List.head?_eq_some_iff.mp hslash
    exact h
  by_cases hstar : cs.head? = some '*'
  · obtain ⟨body, rfl⟩ := List.head?_eq_some_iff.mp hstar
    exact h
  rw [slashExtent_of_head hslash hstar, hallowed, if_pos rfl] at h
  rw [slashExtent_of_head hslash hstar]
  cases hlength : regexLength? cs with
  | some n =>
      rw [hlength] at h
      obtain rfl : ⟨some .regex, n⟩ = found := Except.ok.inj h
      rw [hregex rfl, if_pos rfl]
  | none =>
      rw [hlength] at h
      rw [ite_self]
      exact h

theorem extent_congr (hbraces : other.braces = context.braces)
    (hallowed : context.regexAllowed = true)
    (hregex : found.kind? = some .regex → other.regexAllowed = true)
    (h : extent context c cs = .ok found) : extent other c cs = .ok found := by
  have hcloses : other.closesSubstitution = context.closesSubstitution := by
    rw [Context.closesSubstitution, Context.closesSubstitution, hbraces]
  unfold extent at h ⊢
  rw [hcloses]
  split at h
  · rename_i hword
    rw [if_pos hword]
    exact h
  rename_i hword
  rw [if_neg hword]
  split at h
  · rename_i hblank
    rw [if_pos hblank]
    exact h
  rename_i hblank
  rw [if_neg hblank]
  split at h
  · exact h
  split at h
  · exact h
  · exact h
  · exact h
  · exact slashExtent_congr hallowed hregex h
  · exact h
  · exact h

end Context

end Piece

end ScriptKinds
