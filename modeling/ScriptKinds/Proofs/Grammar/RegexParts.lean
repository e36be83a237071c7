import Mathlib.Data.List.TakeWhile
import ScriptKinds.Grammar.Expression

namespace ScriptKinds

theorem exists_last_slash {text : List Char} (h : '/' ∈ text) :
    ∃ front flags, text = front ++ '/' :: flags ∧ '/' ∉ flags := by
  obtain ⟨flags, front, hsplit, hflags⟩ := List.eq_append_cons_of_mem (List.mem_reverse.mpr h)
  refine ⟨front.reverse, flags.reverse, ?_, fun hslash => hflags (List.mem_reverse.mp hslash)⟩
  rw [← List.reverse_reverse text, hsplit]
  simp

theorem flags_of_literal {front flags : List Char} (h : '/' ∉ flags) :
    ((front ++ '/' :: flags).reverse.takeWhile (· != '/')).reverse = flags := by
  have hreverse : (front ++ '/' :: flags).reverse = flags.reverse ++ '/' :: front.reverse := by
    simp
  have hnoSlash : ∀ character ∈ flags.reverse, (character != '/') = true :=
    fun character hcharacter => bne_iff_ne.mpr fun heq =>
      h (heq ▸ List.mem_reverse.mp hcharacter)
  rw [hreverse, List.takeWhile_append_of_pos hnoSlash]
  simp

theorem splitRegex_divided (opening : Char) {pattern flags : List Char} (h : '/' ∉ flags) :
    splitRegex (opening :: (pattern ++ '/' :: flags)) =
      if opening.utf8Size = 1 then some (pattern, flags) else none := by
  have hflags := @flags_of_literal (opening :: pattern) flags h
  have hfront : (opening :: (pattern ++ '/' :: flags)).take
      ((opening :: (pattern ++ '/' :: flags)).length - flags.length) =
        opening :: (pattern ++ ['/']) := by
    rw [show opening :: (pattern ++ '/' :: flags) = (opening :: (pattern ++ ['/'])) ++ flags by simp,
      List.length_append, Nat.add_sub_cancel, List.take_left]
  rw [List.cons_append] at hflags
  simp only [splitRegex, hflags, hfront]
  rw [← List.cons_append, List.dropLast_concat]

theorem splitRegex_literal {pattern flags : List Char} (h : '/' ∉ flags) :
    splitRegex ('/' :: (pattern ++ '/' :: flags)) = some (pattern, flags) :=
  splitRegex_divided '/' h

theorem splitRegex_undivided {c : Char} {rest : List Char} (h : '/' ∉ rest) :
    splitRegex (c :: rest) = some (c :: rest, []) := by
  by_cases hslash : c = '/'
  · subst hslash
    have hflags := @flags_of_literal [] rest h
    rw [List.nil_append] at hflags
    simp only [splitRegex, hflags]
    simp
  · have hall : ∀ character ∈ (c :: rest).reverse, (character != '/') = true := by
      intro character hcharacter
      refine bne_iff_ne.mpr fun heq => ?_
      rcases List.mem_cons.mp (List.mem_reverse.mp hcharacter) with rfl | hrest
      · exact hslash heq
      · exact h (heq ▸ hrest)
    have hflags : ((c :: rest).reverse.takeWhile (· != '/')).reverse = c :: rest := by
      rw [List.takeWhile_eq_self_iff.mpr hall, List.reverse_reverse]
    simp only [splitRegex, hflags]
    simp

/-- A text that is no pattern with flags has a slash behind a first character of several
bytes. -/
theorem splitRegex_eq_none_iff {literal : List Char} :
    splitRegex literal = none ↔
      ∃ c rest, literal = c :: rest ∧ c.utf8Size ≠ 1 ∧ '/' ∈ rest := by
  cases literal with
  | nil => simp [splitRegex]
  | cons c rest =>
      by_cases hslash : '/' ∈ rest
      · obtain ⟨pattern, flags, rfl, hflags⟩ := exists_last_slash hslash
        rw [splitRegex_divided c hflags, ite_eq_right_iff]
        constructor
        · intro hsize
          exact ⟨c, _, rfl, fun hone => Option.some_ne_none _ (hsize hone), hslash⟩
        · rintro ⟨_, _, heq, hsize, -⟩ hone
          cases heq
          exact absurd hone hsize
      · rw [splitRegex_undivided hslash]
        simp only [reduceCtorEq, false_iff, not_exists, not_and]
        rintro _ _ heq _ hmem
        cases heq
        exact hslash hmem

/-- A regular expression token that has no parts. -/
def Token.Undivided (token : Token) : Prop :=
  token.kind = .regex ∧
    ∃ c rest, token.text.toList = c :: rest ∧ c.utf8Size ≠ 1 ∧ '/' ∈ rest

/-- Whether an expression of a form starts with a token. -/
def Input.Leads (input : Input) (form : LeadingForm) (token : Token) : Prop :=
  input.grammar.leading? token.kind = some form

/-- A place at which a regular expression is read that has no parts. -/
def Input.UndividedAt (input : Input) (place : Nat) : Prop :=
  input.Leads .regex (input.tokens.get place) ∧
    splitRegex (input.tokens.get place).text.toList = none

theorem undividedAt_iff {tokens : TokenStream} {file : String} {place : Nat} :
    Input.UndividedAt ⟨tokens, file, .script⟩ place ↔ (tokens.get place).Undivided := by
  have hall : ∀ kind ∈ TokenKind.all, Grammar.script.leading? kind = some .regex ↔
      kind = .regex := by decide
  exact and_congr (hall _ (TokenKind.mem_all _)) splitRegex_eq_none_iff

namespace Grammar

open Reader

theorem readRegex_eq {input : Input} {before : Progress}
    (hlt : before.place < input.tokens.body.size) :
    readRegex input before =
      match splitRegex (input.tokens.get before.place).text.toList with
      | some (pattern, flags) =>
          .ok (.regex (String.ofList pattern) (String.ofList flags)
              (input.tokens.get before.place).span)
            { before with place := before.place + 1 }
      | none => .error .broken { before with place := before.place + 1 } := by
  unfold readRegex
  simp only [bind, ReaderT.bind, EStateM.bind, advance, hlt, if_true]
  cases splitRegex (input.tokens.get before.place).text.toList <;> rfl

end Grammar

end ScriptKinds
