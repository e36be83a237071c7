import ScriptKinds.Proofs.Grammar.Orderly
import ScriptKinds.Proofs.Numeric.NumberValue
import ScriptKinds.Proofs.Token.Lexed

namespace ScriptKinds

namespace Grammar

open Reader

variable {input : Input}

theorem readPrimary_number (hends : input.tokens.last.kind = .endOfInput) {before : Progress}
    (hkind : (input.tokens.get before.place).kind = .number) :
    readPrimary input before =
      match Literal.value? (input.tokens.get before.place).text with
      | some value => .ok (.number value (input.tokens.get before.place).span)
          { before with place := before.place + 1 }
      | none => .error (.fault ⟨.malformedNumber (input.tokens.get before.place).text,
          (input.tokens.get before.place).span.start, input.file⟩)
          { before with place := before.place + 1 } := by
  have hlt : before.place < input.tokens.body.size := TokenStream.lt_size hends (by simp [hkind])
  unfold readPrimary
  simp only [bind, ReaderT.bind, EStateM.bind, advance, hkind, hlt, if_true]
  cases Literal.value? (input.tokens.get before.place).text <;> rfl

end Grammar

namespace Script

open Grammar

variable {file source : String} {tokens : List Token}

theorem value?_eq_none_iff (h : Token.ofSource file source = .ok tokens) {place : Nat}
    (hkind : ((TokenStream.ofList tokens).get place).kind = .number) :
    Literal.value? ((TokenStream.ofList tokens).get place).text = none ↔
      Literal.overflows ((TokenStream.ofList tokens).get place).text = true := by
  have hne_end : ((TokenStream.ofList tokens).get place).kind ≠ .endOfInput := by simp [hkind]
  obtain ⟨hne, hlength⟩ := (Token.lexed_of_kind h hne_end).numberLength_eq hkind
  exact Literal.value?_eq_none_iff hne hlength

/-- Every number token of a source has a value and is read as it, unless it is a
hexadecimal integer that does not fit into sixty-four bits with a sign.  Such a token
is called malformed where it starts, and no reading of a source calls any other number
so. -/
theorem numbers_valued (htokens : Token.ofSource file source = .ok tokens) :
    (∀ before : Progress, ((TokenStream.ofList tokens).get before.place).kind = .number →
      if Literal.overflows ((TokenStream.ofList tokens).get before.place).text then
        readPrimary ⟨.ofList tokens, file, .script⟩ before = .error (.fault
          ⟨.malformedNumber ((TokenStream.ofList tokens).get before.place).text,
            ((TokenStream.ofList tokens).get before.place).span.start, file⟩)
          { before with place := before.place + 1 }
      else
        ∃ value, Literal.value? ((TokenStream.ofList tokens).get before.place).text = some value ∧
          readPrimary ⟨.ofList tokens, file, .script⟩ before =
            .ok (.number value ((TokenStream.ofList tokens).get before.place).span)
              { before with place := before.place + 1 }) ∧
    ∀ fault text, ofTokens file tokens = .error (.fault fault) →
      fault.cause = .malformedNumber text →
        ∃ place, ((TokenStream.ofList tokens).get place).kind = .number ∧
          ((TokenStream.ofList tokens).get place).text = text ∧ Literal.overflows text = true ∧
          fault.position = ⟨((TokenStream.ofList tokens).get place).span.start, file⟩ := by
  refine ⟨fun before hkind => ?_, fun fault text hfault hcause => ?_⟩
  · have hread := @readPrimary_number ⟨.ofList tokens, file, .script⟩
      (closed_ofList file tokens).ends before hkind
    have hnone := value?_eq_none_iff htokens hkind
    dsimp only at hread
    cases hvalue : Literal.value? ((TokenStream.ofList tokens).get before.place).text with
    | none =>
        rw [hvalue] at hread
        rw [if_pos (hnone.mp hvalue)]
        exact hread
    | some value =>
        rw [hvalue] at hread
        rw [if_neg fun hoverflows => nomatch hvalue.symm.trans (hnone.mpr hoverflows)]
        exact ⟨value, rfl, hread⟩
  · have hnt := nonterminals_inOrder ⟨.ofList tokens, file, .script⟩
      (depthOf (.ofList tokens))
    have hscript : Reader.Orderly ⟨.ofList tokens, file, .script⟩
        (readScript (nonterminals (depthOf (.ofList tokens)))) := inferInstance
    rw [ofTokens] at hfault
    dsimp only [knot] at hfault
    split at hfault
    · cases hfault
    · rename_i failure progress hrun
      cases hfault
      obtain ⟨place, hkind, rfl, hvalue, hposition⟩ := hscript.blames hrun text hcause
      exact ⟨place, hkind, rfl, (value?_eq_none_iff htokens hkind).mp hvalue, hposition⟩

/-- The largest hexadecimal integer that has a value. -/
theorem numbers_valued_of_largest :
    ∃ tokens value, Token.ofSource "numbers.js" "0x7fffffffffffffff" = .ok tokens ∧
      ((TokenStream.ofList tokens).get 0).kind = .number ∧
      readPrimary ⟨.ofList tokens, "numbers.js", .script⟩ .start =
        .ok (.number value ⟨0, 18⟩) ⟨1, 1⟩ := by
  have htokens : Token.ofSource "numbers.js" "0x7fffffffffffffff" = .ok
      [⟨.number, "0x7fffffffffffffff", ⟨0, 18⟩, false⟩, .endAt 18 false] := by
    have hlength : "0x7fffffffffffffff".toList.length ≤ 18 := by decide
    rw [← Token.ofSourceWithin_eq hlength]
    rfl
  have hread := (numbers_valued htokens).1 .start rfl
  have hfits : Literal.overflows "0x7fffffffffffffff" = false := by decide
  change if Literal.overflows "0x7fffffffffffffff" then _ else _ at hread
  rw [hfits, if_neg Bool.false_ne_true] at hread
  obtain ⟨value, -, hread⟩ := hread
  exact ⟨_, value, htokens, rfl, hread⟩

/-- The smallest one that has none. -/
theorem number_unvalued :
    Token.ofSource "numbers.js" "0x8000000000000000" = .ok
        [⟨.number, "0x8000000000000000", ⟨0, 18⟩, false⟩, .endAt 18 false] ∧
      ofTokens "numbers.js" [⟨.number, "0x8000000000000000", ⟨0, 18⟩, false⟩, .endAt 18 false] =
        .error (.fault ⟨.malformedNumber "0x8000000000000000", 0, "numbers.js"⟩) := by
  constructor
  · have hlength : "0x8000000000000000".toList.length ≤ 18 := by decide
    rw [← Token.ofSourceWithin_eq hlength]
    rfl
  · rfl

end Script

end ScriptKinds
