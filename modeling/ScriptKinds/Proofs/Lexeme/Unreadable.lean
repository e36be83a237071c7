import ScriptKinds.Proofs.Token.LongestMatch

namespace ScriptKinds

open Text

namespace Lexeme

/-- A part of a text that starts outside of all escapes. -/
def OccursUnescaped (part text : List Char) : Prop :=
  ∃ before after, Paired before ∧ text = before ++ (part ++ after)

theorem takeWhile_cons_of_not_feed {c : Char} (h : ¬(c == '\n') = true) (cs : List Char) :
    (c :: cs).takeWhile (· != '\n') = c :: cs.takeWhile (· != '\n') :=
  List.takeWhile_cons_of_pos (by simpa using h)

section Occurrence

variable {c d : Char} {part text : List Char}

theorem not_occursUnescaped_nil : ¬OccursUnescaped (d :: part) [] := by
  rintro ⟨before, after, -, htext⟩
  cases before <;> cases htext

theorem occursUnescaped_plain (hc : c ≠ '\\') :
    OccursUnescaped part (c :: text) ↔ part <+: c :: text ∨ OccursUnescaped part text := by
  constructor
  · rintro ⟨before, after, hpaired, htext⟩
    cases hpaired with
    | nil => exact .inl ⟨after, htext.symm⟩
    | escape => exact absurd (List.cons.inj htext).1 hc
    | plain _ hbefore => exact .inr ⟨_, after, hbefore, (List.cons.inj htext).2⟩
  · rintro (⟨after, hstarts⟩ | ⟨before, after, hbefore, rfl⟩)
    · exact ⟨[], after, .nil, hstarts.symm⟩
    · exact ⟨c :: before, after, .plain hc hbefore, rfl⟩

section Escape

variable (hd : d ≠ '\\')

include hd

theorem not_occursUnescaped_lone : ¬OccursUnescaped (d :: part) ['\\'] := by
  rintro ⟨before, after, hpaired, htext⟩
  cases hpaired with
  | nil => exact hd (List.cons.inj htext).1.symm
  | escape => cases (List.cons.inj htext).2
  | plain hc => exact hc (List.cons.inj htext).1.symm

theorem occursUnescaped_escape :
    OccursUnescaped (d :: part) ('\\' :: c :: text) ↔ OccursUnescaped (d :: part) text := by
  constructor
  · rintro ⟨before, after, hpaired, htext⟩
    cases hpaired with
    | nil => exact absurd (List.cons.inj htext).1.symm hd
    | escape hbefore => exact ⟨_, after, hbefore, (List.cons.inj (List.cons.inj htext).2).2⟩
    | plain hc => exact absurd (List.cons.inj htext).1.symm hc
  · rintro ⟨before, after, hbefore, rfl⟩
    exact ⟨'\\' :: c :: before, after, .escape hbefore, rfl⟩

end Escape

end Occurrence

theorem untilQuote_eq_none_iff {quote : Char} (hquote : quote = '"' ∨ quote = '\'')
    (cs : List Char) :
    untilQuote quote cs = none ↔ ¬OccursUnescaped [quote] (cs.takeWhile (· != '\n')) := by
  have hne : quote ≠ '\\' := by rcases hquote with rfl | rfl <;> decide
  fun_induction untilQuote quote cs with
  | case1 => exact iff_of_true rfl not_occursUnescaped_nil
  | case2 => exact iff_of_true rfl (not_occursUnescaped_lone hne)
  | case3 c cs hline =>
      obtain rfl := beq_iff_eq.mp hline
      exact iff_of_true rfl (not_occursUnescaped_lone hne)
  | case4 c cs hline ih =>
      rw [takeWhile_cons_of_not_feed (by decide), takeWhile_cons_of_not_feed hline,
        occursUnescaped_escape hne, Option.map_eq_none_iff]
      exact ih
  | case5 c cs _ _ hline =>
      obtain rfl := beq_iff_eq.mp hline
      exact iff_of_true rfl not_occursUnescaped_nil
  | case6 c cs _ _ hline hends =>
      obtain rfl := beq_iff_eq.mp hends
      rw [takeWhile_cons_of_not_feed hline]
      exact iff_of_false (Option.some_ne_none _) (not_not_intro ⟨[], _, .nil, rfl⟩)
  | case7 c cs hlast hpair hline hends ih =>
      have hstarts : ¬[quote] <+: c :: cs.takeWhile (· != '\n') := by
        rintro ⟨after, hafter⟩
        exact hends (beq_iff_eq.mpr (List.cons.inj hafter).1.symm)
      rw [takeWhile_cons_of_not_feed hline, occursUnescaped_plain (ne_backslash hlast hpair),
        Option.map_eq_none_iff, not_or, and_iff_right hstarts]
      exact ih

/-- A stretch of template text is not closed where neither a backtick nor the start of a
substitution stands outside of the escapes. -/
theorem untilTemplateEnd_eq_none_iff (cs : List Char) :
    untilTemplateEnd cs = none ↔
      ¬OccursUnescaped ['`'] cs ∧ ¬OccursUnescaped ['$', '{'] cs := by
  have htick : '`' ≠ '\\' := by decide
  have hdollar : '$' ≠ '\\' := by decide
  fun_induction untilTemplateEnd cs with
  | case1 => exact iff_of_true rfl ⟨not_occursUnescaped_nil, not_occursUnescaped_nil⟩
  | case2 cs => exact iff_of_false (Option.some_ne_none _) fun h => h.1 ⟨[], cs, .nil, rfl⟩
  | case3 cs => exact iff_of_false (Option.some_ne_none _) fun h => h.2 ⟨[], cs, .nil, rfl⟩
  | case4 =>
      exact iff_of_true rfl ⟨not_occursUnescaped_lone htick, not_occursUnescaped_lone hdollar⟩
  | case5 c cs ih =>
      rw [occursUnescaped_escape htick, occursUnescaped_escape hdollar, Option.map_eq_none_iff]
      exact ih
  | case6 c cs hends hopens hlast hpair ih =>
      have hplain := ne_backslash hlast hpair
      have hbacktick : ¬['`'] <+: c :: cs := by
        rintro ⟨after, hafter⟩
        exact hends (List.cons.inj hafter).1.symm
      have hsubstitution : ¬['$', '{'] <+: c :: cs := by
        rintro ⟨after, hafter⟩
        obtain ⟨hfirst, hsecond⟩ := List.cons.inj hafter
        exact hopens after hfirst.symm hsecond.symm
      rw [occursUnescaped_plain hplain, occursUnescaped_plain hplain, Option.map_eq_none_iff,
        not_or, not_or, and_iff_right hbacktick, and_iff_right hsubstitution]
      exact ih

theorem untilCommentEnd_eq_none_iff (cs : List Char) :
    untilCommentEnd cs = none ↔ ¬['*', '/'] <:+: cs := by
  fun_induction untilCommentEnd cs with
  | case1 => exact iff_of_true rfl (by decide)
  | case2 cs => exact iff_of_false (Option.some_ne_none _) (not_not_intro ⟨[], cs, rfl⟩)
  | case3 c cs hcloses ih =>
      have hstarts : ¬['*', '/'] <+: c :: cs := by
        rintro ⟨after, hafter⟩
        obtain ⟨hfirst, hsecond⟩ := List.cons.inj hafter
        exact hcloses after hfirst.symm hsecond.symm
      rw [Option.map_eq_none_iff, List.infix_cons_iff, not_or, and_iff_right hstarts]
      exact ih

theorem numberLength_ne_zero_of_isDigit {c : Char} (h : isDigit c = true) (cs : List Char) :
    numberLength (c :: cs) ≠ 0 := by
  have hmantissa : Mantissa [c] := .whole (List.cons_ne_nil _ _) (List.forall_mem_singleton.mpr h)
  have hnumeral : Numeral [c] := .decimal hmantissa .none
  have hle : 1 ≤ numberLength (c :: cs) := hnumeral.length_le cs
  omega

theorem Numeral.starts {c : Char} {cs : List Char} (h : Numeral (c :: cs)) :
    isDigit c = true ∨ c = '.' := by
  generalize hwhole : c :: cs = numeral at h
  cases h with
  | hexadecimal =>
      obtain ⟨rfl, -⟩ := List.cons.inj hwhole
      exact .inl rfl
  | decimal hmantissa =>
      cases hmantissa with
      | whole hne hdigits =>
          obtain ⟨d, digits, rfl⟩ := List.exists_cons_of_ne_nil hne
          obtain ⟨rfl, -⟩ := List.cons.inj hwhole
          exact .inl (hdigits c List.mem_cons_self)
      | @fraction digits _ _ hdigits _ =>
          cases digits with
          | nil => exact .inr (List.cons.inj hwhole).1
          | cons d digits =>
              obtain ⟨rfl, -⟩ := List.cons.inj hwhole
              exact .inl (hdigits c List.mem_cons_self)

end Lexeme

namespace Piece

open Lexeme

/-- A character with which no piece of any sort starts.  Regular expressions start like
the operator `/`, and what follows a substitution starts like a closing brace. -/
structure Startless (c : Char) : Prop where
  word : isWordStart c = false
  number : ∀ cs, ¬Numeral (c :: cs)
  quote : c ∉ ['"', '\'', '`']
  operator : ∀ cs, ¬IsOperator (c :: cs)
  gap : ∀ cs rest, ¬Gap (c :: cs) rest

/-- Unreadable stack text cause: nothing can be read of the text, for this cause.  The
numbers are those of the open braces in the open substitutions, innermost first. -/
inductive Unreadable (stack : List Nat) : List Char → Cause → Prop
  | startless {c : Char} {cs : List Char} (h : Startless c) :
      Unreadable stack (c :: cs) (.unrecognised (String.singleton c))
  | comment {cs : List Char} (hopen : ¬['*', '/'] <:+: cs) :
      Unreadable stack ('/' :: '*' :: cs) .unterminatedComment
  | string {quote : Char} {cs : List Char} (hquote : quote = '"' ∨ quote = '\'')
      (hopen : ¬OccursUnescaped [quote] (cs.takeWhile (· != '\n'))) :
      Unreadable stack (quote :: cs) .unterminatedString
  | template {cs : List Char} (htick : ¬OccursUnescaped ['`'] cs)
      (hdollar : ¬OccursUnescaped ['$', '{'] cs) :
      Unreadable stack ('`' :: cs) .unterminatedString
  /-- A closing brace that resumes the text of the innermost template. -/
  | resumed {cs : List Char} (hcloses : stack.head? = some 0) (htick : ¬OccursUnescaped ['`'] cs)
      (hdollar : ¬OccursUnescaped ['$', '{'] cs) :
      Unreadable stack ('}' :: cs) .unterminatedString
  /-- The end of the text in a substitution. -/
  | ended (hopen : stack ≠ []) : Unreadable stack [] .unterminatedString

/-! ### Operators -/

instance (text : List Char) : Decidable (IsOperator text) :=
  inferInstanceAs (Decidable (String.ofList text ∈ TokenKind.operators.map Prod.fst))

theorem operators_first : ∀ entry ∈ TokenKind.operators,
    ∃ other ∈ TokenKind.operators, other.1.toList = entry.1.toList.take 1 := by
  decide

section Operator

variable {c : Char} {cs : List Char} {cause : Cause}

theorem operatorExtent_eq_error_iff :
    operatorExtent c cs = .error cause ↔
      cause = .unrecognised (String.singleton c) ∧ ∀ others, ¬IsOperator (c :: others) := by
  rw [operatorExtent]
  cases hfind : TokenKind.operators.find? fun entry => entry.1.toList.isPrefixOf (c :: cs) with
  | some entry =>
      refine iff_of_false (by simp) fun h => ?_
      have hlongest := TokenKind.longest_find? hfind
      obtain ⟨others, hothers⟩ := hlongest.starts
      have hne := (operators_solid entry (List.mem_of_find?_eq_some hfind)).1
      obtain ⟨d, more, hmore⟩ := List.exists_cons_of_ne_nil hne
      rw [hmore, List.cons_append] at hothers
      obtain ⟨rfl, -⟩ := List.cons.inj hothers
      have hmember := hlongest.member
      rw [hmore] at hmember
      exact h.2 more hmember
  | none =>
      have hnone : ∀ others, ¬IsOperator (c :: others) := by
        intro others hoperator
        obtain ⟨entry, hentry, htext⟩ := List.mem_map.mp hoperator
        obtain ⟨other, hother, hfirst⟩ := operators_first entry hentry
        rw [htext, String.toList_ofList, List.take_succ_cons, List.take_zero] at hfirst
        apply List.find?_eq_none.mp hfind other hother
        rw [hfirst, List.isPrefixOf_iff_prefix]
        exact ⟨cs, rfl⟩
      rw [and_iff_left hnone, Except.error.injEq]
      exact eq_comm

theorem operatorExtent_ne_error {others : List Char} (h : IsOperator (c :: others)) :
    operatorExtent c cs ≠ .error cause :=
  fun herror => (operatorExtent_eq_error_iff.mp herror).2 others h

end Operator

/-! ### Characters that start nothing -/

namespace Startless

variable {c : Char}

theorem intro (hword : isWordStart c = false) (hblank : isBlank c = false)
    (hdigit : isDigit c = false) (hquote : c ∉ ['"', '\'', '`'])
    (hoperator : ∀ cs, ¬IsOperator (c :: cs)) : Startless c := by
  refine ⟨hword, fun cs hnumeral => ?_, hquote, hoperator, fun cs rest hgap => ?_⟩
  · rcases hnumeral.starts with hstart | rfl
    · rw [hdigit] at hstart
      cases hstart
    · exact hoperator [] (by decide)
  · generalize htext : c :: cs = text at hgap
    cases hgap with
    | blanks _ hblanks =>
        rw [hblanks c (htext ▸ List.mem_cons_self)] at hblank
        cases hblank
    | line | block =>
        obtain ⟨rfl, -⟩ := List.cons.inj htext
        exact hoperator [] (by decide)

theorem isBlank_eq (h : Startless c) : isBlank c = false := by
  rw [← Bool.not_eq_true]
  intro hblank
  exact h.gap [] [] (.blanks (List.cons_ne_nil _ _) (List.forall_mem_singleton.mpr hblank))

theorem numberLength_eq (h : Startless c) (cs : List Char) : numberLength (c :: cs) = 0 := by
  by_contra hsome
  obtain ⟨more, hmore⟩ := Nat.exists_eq_add_one_of_ne_zero hsome
  have hnumeral := numeral_take hsome
  rw [hmore, List.take_succ_cons] at hnumeral
  exact h.number _ hnumeral

end Startless

/-! ### Causes -/

section Unreadable

variable {context : Context} {c : Char} {cs : List Char} {cause : Cause}

theorem templateExtent_eq_error_iff {ended opened : TokenKind} :
    templateExtent ended opened cs = .error cause ↔ cause = .unterminatedString ∧
      ¬OccursUnescaped ['`'] cs ∧ ¬OccursUnescaped ['$', '{'] cs := by
  rw [← untilTemplateEnd_eq_none_iff, templateExtent]
  cases untilTemplateEnd cs with
  | none => simp [eq_comm]
  | some found =>
      obtain ⟨n, stop⟩ := found
      cases stop <;> simp

theorem slashExtent_eq_error_iff :
    slashExtent context cs = .error cause ↔ cause = .unterminatedComment ∧
      ∃ body, cs = '*' :: body ∧ ¬['*', '/'] <:+: body := by
  by_cases hslash : cs.head? = some '/'
  · obtain ⟨body, rfl⟩ := List.head?_eq_some_iff.mp hslash
    simp [slashExtent]
  by_cases hstar : cs.head? = some '*'
  · obtain ⟨body, rfl⟩ := List.head?_eq_some_iff.mp hstar
    have hbody : (∃ other, '*' :: body = '*' :: other ∧ ¬['*', '/'] <:+: other) ↔
        untilCommentEnd body = none := by
      simp [untilCommentEnd_eq_none_iff]
    rw [hbody]
    cases hends : untilCommentEnd body <;> simp [slashExtent, hends, eq_comm]
  · refine iff_of_false (fun herror => ?_) ?_
    · rw [slashExtent_of_head hslash hstar] at herror
      split at herror
      · cases herror
      · exact operatorExtent_ne_error (show IsOperator ['/'] by decide) herror
    · rintro ⟨-, body, rfl, -⟩
      exact hstar rfl

theorem closesSubstitution_iff :
    context.closesSubstitution = true ↔ context.braces.head? = some 0 :=
  beq_iff_eq

theorem unreadable_of_extent (h : extent context c cs = .error cause) :
    Unreadable context.braces (c :: cs) cause := by
  unfold extent at h
  split at h
  · cases h
  rename_i hword
  split at h
  · cases h
  rename_i hblank
  split at h
  · cases h
  rename_i hnumber
  split at h
  · split at h <;> cases h
    exact .string (.inl rfl) ((untilQuote_eq_none_iff (.inl rfl) cs).mp ‹_›)
  · split at h <;> cases h
    exact .string (.inr rfl) ((untilQuote_eq_none_iff (.inr rfl) cs).mp ‹_›)
  · obtain ⟨rfl, htick, hdollar⟩ := templateExtent_eq_error_iff.mp h
    exact .template htick hdollar
  · obtain ⟨rfl, body, rfl, hopen⟩ := slashExtent_eq_error_iff.mp h
    exact .comment hopen
  · split at h
    · rename_i hcloses
      obtain ⟨rfl, htick, hdollar⟩ := templateExtent_eq_error_iff.mp h
      exact .resumed (closesSubstitution_iff.mp hcloses) htick hdollar
    · exact absurd h (operatorExtent_ne_error (show IsOperator ['}'] by decide))
  · rename_i hdouble hsingle htick _ _
    obtain ⟨rfl, hoperator⟩ := operatorExtent_eq_error_iff.mp h
    have hdigit : isDigit c = false := by
      rw [← Bool.not_eq_true]
      exact fun hdigit => numberLength_ne_zero_of_isDigit hdigit cs hnumber
    refine .startless (.intro (Bool.eq_false_iff.mpr hword) (Bool.eq_false_iff.mpr hblank) hdigit ?_
      hoperator)
    simp only [List.mem_cons, List.not_mem_nil, or_false, not_or]
    exact ⟨hdouble, hsingle, htick⟩

theorem extent_of_unreadable (h : Unreadable context.braces (c :: cs) cause) :
    extent context c cs = .error cause := by
  generalize htext : c :: cs = text at h
  cases h with
  | @startless d others hstart =>
      obtain ⟨rfl, rfl⟩ := List.cons.inj htext
      have hquotes := hstart.quote
      simp only [List.mem_cons, List.not_mem_nil, or_false, not_or] at hquotes
      unfold extent
      rw [hstart.word, if_neg Bool.false_ne_true, hstart.isBlank_eq, if_neg Bool.false_ne_true,
        hstart.numberLength_eq cs]
      dsimp only
      split
      · exact absurd rfl hquotes.1
      · exact absurd rfl hquotes.2.1
      · exact absurd rfl hquotes.2.2
      · exact absurd (show IsOperator ['/'] by decide) (hstart.operator [])
      · exact absurd (show IsOperator ['}'] by decide) (hstart.operator [])
      · exact operatorExtent_eq_error_iff.mpr ⟨rfl, hstart.operator⟩
  | comment hopen =>
      obtain ⟨rfl, rfl⟩ := List.cons.inj htext
      exact (@slashExtent_eq_error_iff context).mpr ⟨rfl, _, rfl, hopen⟩
  | string hquote hopen =>
      obtain ⟨rfl, rfl⟩ := List.cons.inj htext
      rw [extent_quote hquote, (untilQuote_eq_none_iff hquote cs).mpr hopen, Option.elim_none]
  | template htick hdollar =>
      obtain ⟨rfl, rfl⟩ := List.cons.inj htext
      exact templateExtent_eq_error_iff.mpr ⟨rfl, htick, hdollar⟩
  | resumed hcloses htick hdollar =>
      obtain ⟨rfl, rfl⟩ := List.cons.inj htext
      change (if context.closesSubstitution then templateExtent .templateTail .templateMiddle cs
        else operatorExtent '}' cs) = _
      rw [if_pos (closesSubstitution_iff.mpr hcloses)]
      exact templateExtent_eq_error_iff.mpr ⟨rfl, htick, hdollar⟩
  | ended => cases htext

theorem Unreadable.unique {stack : List Nat} {text : List Char} {other : Cause}
    (h : Unreadable stack text cause) (hother : Unreadable stack text other) : other = cause := by
  cases text with
  | nil =>
      cases h
      cases hother
      rfl
  | cons c cs =>
      have hfirst := @extent_of_unreadable ⟨none, stack⟩ c cs cause h
      have hsecond := @extent_of_unreadable ⟨none, stack⟩ c cs other hother
      rw [hfirst] at hsecond
      exact (Except.error.inj hsecond).symm

end Unreadable

end Piece

end ScriptKinds
