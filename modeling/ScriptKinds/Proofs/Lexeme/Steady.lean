import ScriptKinds.Proofs.Lexeme.Shape

namespace ScriptKinds

namespace Text

/-- A text that is empty or starts with a blank. -/
def StartsBlank (text : List Char) : Prop :=
  ∀ c ∈ text.head?, isBlank c = true

theorem not_mem_of_blank {inClass : Char → Bool} (h : ∀ c, inClass c = true → isBlank c = false)
    {c : Char} (hc : isBlank c = true) : inClass c = false := by
  rcases hclass : inClass c with _ | _
  · rfl
  · rw [h c hclass] at hc
    cases hc

theorem not_isBlank_of_ascii {c : Char} (h : 33 ≤ c.val.toNat) (h' : c.val.toNat ≤ 126) :
    isBlank c = false := by
  simp only [isBlank, Bool.or_eq_false_iff, Bool.and_eq_false_iff, decide_eq_false_iff_not,
    beq_eq_false_iff_ne]
  omega

theorem not_isBlank_of_isDigit {c : Char} (h : isDigit c = true) : isBlank c = false := by
  simp only [isDigit, Bool.and_eq_true, decide_eq_true_eq, Char.le_def, UInt32.le_iff_toNat_le] at h
  exact not_isBlank_of_ascii (Nat.le_trans (by decide) h.1) (Nat.le_trans h.2 (by decide))

theorem not_isBlank_of_isLetter {c : Char} (h : isLetter c = true) : isBlank c = false := by
  simp only [isLetter, Bool.or_eq_true, Bool.and_eq_true, decide_eq_true_eq, Char.le_def,
    UInt32.le_iff_toNat_le] at h
  rcases h with h | h
  · exact not_isBlank_of_ascii (Nat.le_trans (by decide) h.1) (Nat.le_trans h.2 (by decide))
  · exact not_isBlank_of_ascii (Nat.le_trans (by decide) h.1) (Nat.le_trans h.2 (by decide))

theorem not_isBlank_of_isHexDigit {c : Char} (h : isHexDigit c = true) : isBlank c = false := by
  simp only [isHexDigit, Bool.or_eq_true, Bool.and_eq_true, decide_eq_true_eq, Char.le_def,
    UInt32.le_iff_toNat_le] at h
  rcases h with (h | h) | h
  · exact not_isBlank_of_isDigit h
  · exact not_isBlank_of_ascii (Nat.le_trans (by decide) h.1) (Nat.le_trans h.2 (by decide))
  · exact not_isBlank_of_ascii (Nat.le_trans (by decide) h.1) (Nat.le_trans h.2 (by decide))

theorem not_isBlank_of_isWordPart {c : Char} (h : isWordPart c = true) : isBlank c = false := by
  simp only [isWordPart, isWordStart, Bool.or_eq_true, beq_iff_eq] at h
  rcases h with ((h | rfl) | rfl) | h
  · exact not_isBlank_of_isLetter h
  · decide
  · decide
  · exact not_isBlank_of_isDigit h

end Text

namespace Lexeme

open Text

/-! ### Runs and numbers -/

theorem runLength_le (inClass : Char → Bool) (cs : List Char) : runLength inClass cs ≤ cs.length :=
  (List.takeWhile_sublist _).length_le

/-- A length is steady if a text can be cut behind it, and continued with a
blank, without changing it. -/
def Steady (measure : List Char → Nat) : Prop :=
  ∀ cs out n, measure cs ≤ n → StartsBlank out → measure (cs.take n ++ out) = measure cs

theorem steady_runLength {inClass : Char → Bool}
    (h : ∀ c, inClass c = true → isBlank c = false) : Steady (runLength inClass) := by
  intro cs out n hn hout
  induction cs generalizing n with
  | nil =>
      cases out with
      | nil => simp
      | cons d out =>
          have hd : inClass d = false := not_mem_of_blank h (hout d rfl)
          simp [runLength, hd]
  | cons c cs ih =>
      rcases hc : inClass c with _ | _
      · cases n with
        | zero =>
            cases out with
            | nil => simp [runLength, hc]
            | cons d out =>
                have hd : inClass d = false := not_mem_of_blank h (hout d rfl)
                simp [runLength, hc, hd]
        | succ n => simp [runLength, hc]
      · cases n with
        | zero => simp [runLength, hc] at hn
        | succ n =>
            have hrest : runLength inClass cs ≤ n := by simpa [runLength, hc] using hn
            simpa [runLength, hc] using ih n hrest

theorem steady_isDigit : Steady (runLength isDigit) :=
  steady_runLength fun _ => not_isBlank_of_isDigit

theorem steady_isHexDigit : Steady (runLength isHexDigit) :=
  steady_runLength fun _ => not_isBlank_of_isHexDigit

theorem ne_of_blank {c d : Char} (hd : isBlank d = true) (hc : isBlank c = false) : d ≠ c := by
  rintro rfl
  rw [hc] at hd
  cases hd

theorem hexLength_cons_cons (c x : Char) (cs : List Char) :
    hexLength (c :: x :: cs) =
      if c = '0' ∧ (x = 'x' ∨ x = 'X') ∧ 0 < runLength isHexDigit cs then
        runLength isHexDigit cs + 2 else 0 := by
  by_cases hc : c = '0'
  · subst hc
    by_cases hx : x = 'x' ∨ x = 'X'
    · rcases hrun : runLength isHexDigit cs with _ | digits <;> simp [hexLength, hx, hrun]
    · simp [hexLength, hx]
  · simp [hexLength, hc]

theorem hexLength_of_blank {out : List Char} (before : List Char) (hlength : before.length ≤ 1)
    (h : StartsBlank out) : hexLength (before ++ out) = 0 := by
  rcases before with _ | ⟨c, _ | ⟨d, before⟩⟩
  · rcases out with _ | ⟨c, _ | ⟨x, out⟩⟩
    · rfl
    · simp [hexLength]
    · have hc : c ≠ '0' := ne_of_blank (h c rfl) (by decide)
      simp [hexLength_cons_cons, hc]
  · rcases out with _ | ⟨x, out⟩
    · simp [hexLength]
    · have hx : x ≠ 'x' ∧ x ≠ 'X' :=
        ⟨ne_of_blank (h x rfl) (by decide), ne_of_blank (h x rfl) (by decide)⟩
      simp [hexLength_cons_cons, hx]
  · simp only [List.length_cons] at hlength
    omega

theorem steady_hexLength : Steady hexLength := by
  intro cs out n hn hout
  rcases cs with _ | ⟨c, _ | ⟨x, cs⟩⟩
  · exact hexLength_of_blank _ (by simp) hout
  · have hshort : hexLength [c] = 0 := by simp [hexLength]
    rw [hshort, hexLength_of_blank _ (List.length_take_le' n [c]) hout]
  · rcases n with _ | _ | n
    · rw [hexLength_of_blank _ (by simp) hout]
      omega
    · rw [hexLength_of_blank _ (by simp) hout]
      rw [hexLength_cons_cons] at hn ⊢
      split at hn <;> simp_all
    · have hrun : runLength isHexDigit cs ≤ n →
          runLength isHexDigit (cs.take n ++ out) = runLength isHexDigit cs :=
        fun hle => steady_isHexDigit cs out n hle hout
      simp only [List.take_succ_cons, List.cons_append, hexLength_cons_cons] at hn ⊢
      by_cases hmark : c = '0' ∧ (x = 'x' ∨ x = 'X')
      · have hle : runLength isHexDigit cs ≤ n := by
          simp only [hmark, true_and] at hn
          split at hn <;> omega
        rw [hrun hle]
      · rw [if_neg fun h => hmark ⟨h.1, h.2.1⟩, if_neg fun h => hmark ⟨h.1, h.2.1⟩]

theorem steady_signLength : Steady signLength := by
  intro cs out n hn hout
  rcases cs with _ | ⟨c, cs⟩
  · rcases out with _ | ⟨d, out⟩
    · simp
    · have hd : d ≠ '+' ∧ d ≠ '-' :=
        ⟨ne_of_blank (hout d rfl) (by decide), ne_of_blank (hout d rfl) (by decide)⟩
      simp [signLength, hd]
  · rcases n with _ | n
    · rcases out with _ | ⟨d, out⟩
      · simpa [signLength] using hn
      · have hd : d ≠ '+' ∧ d ≠ '-' :=
          ⟨ne_of_blank (hout d rfl) (by decide), ne_of_blank (hout d rfl) (by decide)⟩
        simp_all [signLength]
    · simp [signLength]

theorem drop_take_append {cs out : List Char} {k n : Nat} (h : k ≤ n) (hlength : k ≤ cs.length) :
    (cs.take n ++ out).drop k = (cs.drop k).take (n - k) ++ out := by
  rw [List.drop_append_of_le_length (by simp; omega), List.drop_take]

theorem exponentLength_cons (e : Char) (cs : List Char) :
    exponentLength (e :: cs) =
      if (e = 'e' ∨ e = 'E') ∧ 0 < runLength isDigit (cs.drop (signLength cs)) then
        1 + signLength cs + runLength isDigit (cs.drop (signLength cs)) else 0 := by
  by_cases he : e = 'e' ∨ e = 'E'
  · rcases hrun : runLength isDigit (cs.drop (signLength cs)) with _ | digits <;>
      simp [exponentLength, he, hrun]
  · simp [exponentLength, he]

theorem Steady.of_blank {measure : List Char → Nat} (h : Steady measure) {out : List Char}
    (hout : StartsBlank out) (hnil : measure [] = 0) : measure out = 0 := by
  have hmeasure := h [] out 0 (by omega) hout
  rwa [List.take_nil, List.nil_append, hnil] at hmeasure

theorem signLength_le (cs : List Char) : signLength cs ≤ 1 ∧ signLength cs ≤ cs.length := by
  rcases cs with _ | ⟨c, cs⟩
  · simp [signLength]
  · rw [signLength]
    split <;> simp

theorem steady_exponentLength : Steady exponentLength := by
  intro cs out n hn hout
  have hblank : exponentLength out = 0 := by
    rcases out with _ | ⟨d, out⟩
    · rfl
    · have hd : d ≠ 'e' ∧ d ≠ 'E' :=
        ⟨ne_of_blank (hout d rfl) (by decide), ne_of_blank (hout d rfl) (by decide)⟩
      simp [exponentLength_cons, hd]
  rcases cs with _ | ⟨e, cs⟩
  · rw [List.take_nil, List.nil_append, hblank, exponentLength]
  rcases n with _ | n
  · rw [List.take_zero, List.nil_append, hblank]
    omega
  rw [List.take_succ_cons, List.cons_append, exponentLength_cons, exponentLength_cons]
  rw [exponentLength_cons] at hn
  by_cases he : e = 'e' ∨ e = 'E'
  · have hsign := signLength_le cs
    by_cases hreached : signLength cs ≤ n
    · have hdigits : runLength isDigit (cs.drop (signLength cs)) ≤ n - signLength cs := by
        simp only [he, true_and] at hn
        split at hn <;> omega
      rw [steady_signLength cs out n hreached hout, drop_take_append hreached hsign.2,
        steady_isDigit _ out _ hdigits hout]
    · -- Without the sign there are no digits in front of the blank.
      obtain rfl : n = 0 := by omega
      have hdigits : runLength isDigit (cs.drop (signLength cs)) = 0 := by
        simp only [he, true_and] at hn
        split at hn <;> omega
      have hnone : runLength isDigit (out.drop (signLength out)) = 0 := by
        rw [steady_signLength.of_blank hout rfl, List.drop_zero]
        exact steady_isDigit.of_blank hout rfl
      simp [hdigits, hnone]
  · rw [if_neg fun h => he h.1, if_neg fun h => he h.1]

/-- The length of a mantissa whose whole part has been read. -/
def mantissaFrom (whole : Nat) (rest : List Char) : Nat :=
  match rest with
  | '.' :: rest =>
      if whole + runLength isDigit rest = 0 then 0 else whole + 1 + runLength isDigit rest
  | _ => whole

theorem mantissaLength_eq (cs : List Char) :
    mantissaLength cs = mantissaFrom (runLength isDigit cs) (cs.drop (runLength isDigit cs)) := by
  simp only [mantissaLength, beq_iff_eq]
  rfl

theorem mantissaFrom_point (whole : Nat) (rest : List Char) :
    mantissaFrom whole ('.' :: rest) =
      if whole + runLength isDigit rest = 0 then 0 else whole + 1 + runLength isDigit rest := rfl

theorem mantissaFrom_of_ne (whole : Nat) {rest : List Char} (h : rest.head? ≠ some '.') :
    mantissaFrom whole rest = whole := by
  rw [mantissaFrom]
  rintro rest rfl
  exact h rfl

theorem mantissaFrom_of_blank (whole : Nat) {out : List Char} (h : StartsBlank out) :
    mantissaFrom whole out = whole :=
  mantissaFrom_of_ne whole fun hhead => absurd (h '.' hhead) (by decide)

theorem le_mantissaFrom (whole : Nat) (rest : List Char) : whole ≤ mantissaFrom whole rest := by
  unfold mantissaFrom
  split
  · split <;> omega
  · exact Nat.le_refl _

theorem steady_mantissaFrom (whole : Nat) {cs out : List Char} {n : Nat}
    (hn : mantissaFrom whole cs ≤ whole + n) (hout : StartsBlank out) :
    mantissaFrom whole (cs.take n ++ out) = mantissaFrom whole cs := by
  rcases cs with _ | ⟨d, cs⟩
  · rw [List.take_nil, List.nil_append, mantissaFrom_of_blank whole hout]
    rfl
  by_cases hd : d = '.'
  · subst hd
    rw [mantissaFrom_point] at hn ⊢
    rcases n with _ | n
    · rw [List.take_zero, List.nil_append, mantissaFrom_of_blank whole hout]
      split at hn <;> split <;> omega
    · have hfraction : runLength isDigit cs ≤ n := by split at hn <;> omega
      rw [List.take_succ_cons, List.cons_append, mantissaFrom_point,
        steady_isDigit cs out n hfraction hout]
  · have hpoint : (d :: cs).head? ≠ some '.' := by simpa using hd
    rw [mantissaFrom_of_ne whole hpoint]
    rcases n with _ | n
    · exact mantissaFrom_of_blank whole hout
    · exact mantissaFrom_of_ne whole (by simpa using hd)

theorem steady_mantissaLength : Steady mantissaLength := by
  intro cs out n hn hout
  have hlength := runLength_le isDigit cs
  have hwhole : runLength isDigit cs ≤ n := by
    rw [mantissaLength_eq] at hn
    refine Nat.le_trans ?_ hn
    exact le_mantissaFrom _ _
  rw [mantissaLength_eq, mantissaLength_eq, steady_isDigit cs out n hwhole hout,
    drop_take_append hwhole hlength]
  apply steady_mantissaFrom _ _ hout
  rw [← mantissaLength_eq]
  omega

theorem decimalLength_eq (cs : List Char) :
    decimalLength cs =
      if mantissaLength cs = 0 then 0
      else mantissaLength cs + exponentLength (cs.drop (mantissaLength cs)) := by
  rcases h : mantissaLength cs with _ | mantissa <;> simp [decimalLength, h]

theorem numberLength_eq (cs : List Char) :
    numberLength cs = if hexLength cs = 0 then decimalLength cs else hexLength cs := by
  rcases h : hexLength cs with _ | hex <;> simp [numberLength, h]

theorem mantissaLength_le (cs : List Char) : mantissaLength cs ≤ cs.length := by
  rw [mantissaLength_eq]
  have hwhole := runLength_le isDigit cs
  rcases hrest : cs.drop (runLength isDigit cs) with _ | ⟨d, rest⟩
  · exact hwhole
  by_cases hd : d = '.'
  · have hfraction := runLength_le isDigit rest
    have hlength := congrArg List.length hrest
    simp only [List.length_drop, List.length_cons] at hlength
    subst hd
    rw [mantissaFrom_point]
    split <;> omega
  · rw [mantissaFrom_of_ne _ (by simpa using hd)]
    exact hwhole

theorem steady_decimalLength : Steady decimalLength := by
  intro cs out n hn hout
  rw [decimalLength_eq] at hn
  have hmantissa : mantissaLength cs ≤ n := by split at hn <;> omega
  rw [decimalLength_eq, decimalLength_eq, steady_mantissaLength cs out n hmantissa hout]
  split
  · rfl
  · rename_i hne
    rw [if_neg hne] at hn
    rw [drop_take_append hmantissa (mantissaLength_le cs),
      steady_exponentLength _ out _ (by omega) hout]

theorem steady_numberLength : Steady numberLength := by
  intro cs out n hn hout
  rw [numberLength_eq] at hn
  have hhex : hexLength cs ≤ n := by split at hn <;> omega
  rw [numberLength_eq, numberLength_eq, steady_hexLength cs out n hhex hout]
  split
  · rename_i hzero
    rw [if_pos hzero] at hn
    exact steady_decimalLength cs out n hn hout
  · rfl

theorem numberLength_le (cs : List Char) : numberLength cs ≤ cs.length := by
  have hhex : hexLength cs ≤ cs.length := by
    rcases cs with _ | ⟨c, _ | ⟨x, cs⟩⟩
    · simp [hexLength]
    · simp [hexLength]
    · have hdigits := runLength_le isHexDigit cs
      rw [hexLength_cons_cons, List.length_cons, List.length_cons]
      split <;> omega
  have hexponent (rest : List Char) : exponentLength rest ≤ rest.length := by
    rcases rest with _ | ⟨e, rest⟩
    · simp [exponentLength]
    · have hsign := signLength_le rest
      have hdigits := runLength_le isDigit (rest.drop (signLength rest))
      rw [List.length_drop] at hdigits
      rw [exponentLength_cons, List.length_cons]
      split <;> omega
  have hmantissa := mantissaLength_le cs
  have hrest := hexponent (cs.drop (mantissaLength cs))
  rw [List.length_drop] at hrest
  rw [numberLength_eq, decimalLength_eq]
  split
  · split <;> omega
  · exact hhex

theorem takeWhile_seam {inClass : Char → Bool} (h : ∀ c, inClass c = true → isBlank c = false)
    (cs : List Char) {out : List Char} (hout : StartsBlank out) :
    (cs.take (runLength inClass cs) ++ out).takeWhile inClass = cs.takeWhile inClass := by
  have hrun := steady_runLength h cs out _ (Nat.le_refl _) hout
  have hlength : (cs.take (runLength inClass cs)).length = runLength inClass cs :=
    List.length_take_of_le (runLength_le inClass cs)
  have htake := (Piece.takeWhile_run inClass (cs.take (runLength inClass cs) ++ out)).1
  rw [hrun, List.take_left' hlength] at htake
  rw [← htake, (Piece.takeWhile_run inClass cs).1]

/-! ### Delimited lexemes -/

theorem ne_backslash {c : Char} {cs : List Char} (hlast : c = '\\' → cs = [] → False)
    (hpair : ∀ d rest, c = '\\' → cs = d :: rest → False) : c ≠ '\\' := by
  rintro rfl
  cases cs with
  | nil => exact hlast rfl rfl
  | cons d rest => exact hpair d rest rfl rfl

theorem untilQuote_cons (quote : Char) {c : Char} (hc : c ≠ '\\') (cs : List Char) :
    untilQuote quote (c :: cs) =
      if c == '\n' then none
      else if c == quote then some 1
      else (untilQuote quote cs).map (· + 1) := by
  rw [untilQuote]
  · rintro rfl
    exact absurd rfl hc
  · rintro d rest rfl
    exact absurd rfl hc

theorem untilQuote_seam {quote : Char} {cs : List Char} {n : Nat}
    (h : untilQuote quote cs = some n) (out : List Char) :
    n ≤ cs.length ∧ untilQuote quote (cs.take n ++ out) = some n := by
  fun_induction untilQuote quote cs generalizing n with
  | case1 => cases h
  | case2 => cases h
  | case3 => cases h
  | case4 c cs hline ih =>
      obtain ⟨m, hm, rfl⟩ := Option.map_eq_some_iff.mp h
      simp [untilQuote, hline, ih hm]
  | case5 => cases h
  | case6 c cs hlast hpair hline hquote =>
      cases h
      refine ⟨by simp, ?_⟩
      rw [List.take_succ_cons, List.cons_append, untilQuote_cons quote (ne_backslash hlast hpair),
        if_neg hline, if_pos hquote]
  | case7 c cs hlast hpair hline hquote ih =>
      obtain ⟨m, hm, rfl⟩ := Option.map_eq_some_iff.mp h
      refine ⟨by simpa using (ih hm).1, ?_⟩
      rw [List.take_succ_cons, List.cons_append, untilQuote_cons quote (ne_backslash hlast hpair),
        if_neg hline, if_neg hquote, (ih hm).2]
      rfl

theorem untilSlash_cons (inClass : Bool) {c : Char} (hc : c ≠ '\\') (cs : List Char) :
    untilSlash inClass (c :: cs) =
      if c == '\n' then none
      else if inClass then (untilSlash (c != ']') cs).map (· + 1)
      else if c == '/' then some 1
      else (untilSlash (c == '[') cs).map (· + 1) := by
  rw [untilSlash]
  · rintro rfl
    exact absurd rfl hc
  · rintro d rest rfl
    exact absurd rfl hc

theorem untilSlash_seam {inClass : Bool} {cs : List Char} {n : Nat}
    (h : untilSlash inClass cs = some n) (out : List Char) :
    (0 < n ∧ n ≤ cs.length) ∧ untilSlash inClass (cs.take n ++ out) = some n := by
  fun_induction untilSlash inClass cs generalizing n with
  | case1 => cases h
  | case2 => cases h
  | case3 => cases h
  | case4 inClass c cs hline ih =>
      obtain ⟨m, hm, rfl⟩ := Option.map_eq_some_iff.mp h
      simp [untilSlash, hline, ih hm]
  | case5 => cases h
  | case6 c cs hlast hpair hline ih =>
      obtain ⟨m, hm, rfl⟩ := Option.map_eq_some_iff.mp h
      refine ⟨by simpa using (ih hm).1.2, ?_⟩
      rw [List.take_succ_cons, List.cons_append, untilSlash_cons _ (ne_backslash hlast hpair),
        if_neg hline, if_pos rfl, (ih hm).2]
      rfl
  | case7 inClass c cs hlast hpair hline hclass hslash =>
      cases h
      refine ⟨by simp, ?_⟩
      rw [List.take_succ_cons, List.cons_append, untilSlash_cons _ (ne_backslash hlast hpair),
        if_neg hline, if_neg hclass, if_pos hslash]
  | case8 inClass c cs hlast hpair hline hclass hslash ih =>
      obtain ⟨m, hm, rfl⟩ := Option.map_eq_some_iff.mp h
      refine ⟨by simpa using (ih hm).1.2, ?_⟩
      rw [List.take_succ_cons, List.cons_append, untilSlash_cons _ (ne_backslash hlast hpair),
        if_neg hline, if_neg hclass, if_neg hslash, (ih hm).2]
      rfl

theorem untilTemplateEnd_cons {c : Char} {cs : List Char} (htick : c ≠ '`') (hc : c ≠ '\\')
    (hopen : ∀ rest, c = '$' → cs = '\x7b' :: rest → False) :
    untilTemplateEnd (c :: cs) = (untilTemplateEnd cs).map fun (n, stop) => (n + 1, stop) := by
  rw [untilTemplateEnd]
  · rintro rfl
    exact absurd rfl htick
  · exact hopen
  · rintro rfl
    exact absurd rfl hc
  · rintro d rest rfl
    exact absurd rfl hc

theorem untilTemplateEnd_seam {cs : List Char} {n : Nat} {stop : TemplateEnd}
    (h : untilTemplateEnd cs = some (n, stop)) (out : List Char) :
    (0 < n ∧ n ≤ cs.length) ∧ untilTemplateEnd (cs.take n ++ out) = some (n, stop) := by
  fun_induction untilTemplateEnd cs generalizing n with
  | case1 => cases h
  | case2 =>
      cases h
      exact ⟨by simp, rfl⟩
  | case3 =>
      cases h
      exact ⟨by simp, rfl⟩
  | case4 => cases h
  | case5 c cs ih =>
      obtain ⟨⟨m, stop⟩, hm, heq⟩ := Option.map_eq_some_iff.mp h
      cases heq
      simp [untilTemplateEnd, ih hm]
  | case6 c cs htick hopen hlast hpair ih =>
      obtain ⟨⟨m, stop⟩, hm, heq⟩ := Option.map_eq_some_iff.mp h
      cases heq
      obtain ⟨⟨hpos, hle⟩, hrest⟩ := ih hm
      refine ⟨by simpa using hle, ?_⟩
      rw [List.take_succ_cons, List.cons_append,
        untilTemplateEnd_cons htick (ne_backslash hlast hpair), hrest]
      · rfl
      · intro rest hdollar hbrace
        obtain ⟨k, rfl⟩ := Nat.exists_eq_add_one_of_ne_zero (Nat.ne_of_gt hpos)
        cases cs with
        | nil => simp [untilTemplateEnd] at hm
        | cons d cs =>
            rw [List.take_succ_cons, List.cons_append] at hbrace
            obtain ⟨rfl, -⟩ := List.cons.inj hbrace
            exact hopen cs hdollar rfl

end Lexeme

end ScriptKinds
