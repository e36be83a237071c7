import ScriptKinds.Proofs.Grammar.ScriptProgress

/-!
Reading comes to an end.

Every construct passes a token, and so does every turn of a repetition after
which there is another turn.  This rests on the tokens that end the text: the
last one is never passed, and a repetition of class members would not come to an
end at it if its text were a reserved word.
-/

namespace ScriptKinds

namespace TokenStream

variable {tokens : TokenStream}

theorem get_mem_toList (tokens : TokenStream) (place : Nat) : tokens.get place ∈ tokens.toList := by
  rw [get, toList]
  cases hplace : tokens.body[place]? with
  | none => exact List.mem_append_right _ List.mem_cons_self
  | some token =>
      exact List.mem_append_left _ (Array.mem_toList_iff.mpr (Array.mem_of_getElem? hplace))

theorem of_mem_ofList {tokens : List Token} {token : Token} (h : token ∈ (ofList tokens).toList) :
    token ∈ tokens ∨ ∃ offset newline, token = .endAt offset newline := by
  cases hlast : tokens.getLast? with
  | none =>
      rw [ofList, hlast] at h
      exact .inr ⟨0, false, List.mem_singleton.mp h⟩
  | some last =>
      rw [ofList, hlast] at h
      dsimp only at h
      split at h
      · rcases List.mem_append.mp h with hbody | hend
        · exact .inl ((List.dropLast_sublist _).subset hbody)
        · rw [List.mem_singleton.mp hend]
          exact .inl (List.mem_of_getLast? hlast)
      · rcases List.mem_append.mp h with hbody | hend
        · exact .inl hbody
        · exact .inr ⟨_, _, List.mem_singleton.mp hend⟩

end TokenStream

namespace Reader

variable {α σ : Type}

variable {input : Input}

end Reader

namespace Grammar

open Reader

end Grammar

namespace Script

/-- Nothing starts, goes on with or is named by a token that ends the text, if
none of them has a reserved word as its text. -/
theorem terminated_ofList (file : String) {tokens : List Token}
    (h : ∀ token ∈ tokens, token.kind = .endOfInput → TokenKind.ofReserved? token.text = none) :
    (⟨.ofList tokens, file, .script⟩ : Input).Terminated where
  toClosed := closed_ofList file tokens
  trailing := rfl
  nameless place hkind := by
    have hword : TokenKind.ofReserved? ((TokenStream.ofList tokens).get place).text = none := by
      rcases TokenStream.of_mem_ofList (TokenStream.get_mem_toList _ place) with hmem | hadded
      · exact h _ hmem hkind
      · obtain ⟨offset, newline, heq⟩ := hadded
        rw [heq]
        rfl
    simp [Token.isMemberName, Token.isPropertyName, hkind, hword]

theorem failure_of_ofTokens {file : String} {tokens : List Token} {failure : Failure}
    (hterminated : (⟨.ofList tokens, file, .script⟩ : Input).Terminated)
    (h : ofTokens file tokens = .error failure) :
    failure ≠ .exhausted ∧ (failure = .broken → ∃ token ∈ tokens, token.Undivided) := by
  have hlive : (Grammar.nonterminals (Grammar.depthOf (.ofList tokens))).Live
      ⟨.ofList tokens, file, .script⟩ True 0 := by
    apply (Grammar.nonterminals_suffice _ 0).2
    rw [Grammar.depthOf, TokenStream.size]
    dsimp only
    omega
  have hread : Reader.Advances ⟨.ofList tokens, file, .script⟩ True Reader.anything 0
      (Grammar.readScript (Grammar.nonterminals (Grammar.depthOf (.ofList tokens))))
      Reader.weakly := Grammar.advances_readScript hlive
  have houtcome := hread hterminated .start (Nat.zero_le _) (Nat.zero_le _) trivial
  rw [ofTokens] at h
  dsimp only [Grammar.knot] at h
  split at h
  · cases h
  · rename_i hrun
    cases h
    rw [hrun] at houtcome
    obtain _ | ⟨htotal, hbroken⟩ := houtcome
    refine ⟨htotal trivial, fun hfailure => ?_⟩
    obtain ⟨place, hplace⟩ := hbroken hfailure
    have hundivided := undividedAt_iff.mp hplace
    rcases TokenStream.of_mem_ofList (TokenStream.get_mem_toList _ place) with
      hmem | ⟨offset, newline, heq⟩
    · exact ⟨_, hmem, hundivided⟩
    · rw [heq] at hundivided
      obtain ⟨hkind, -⟩ := hundivided
      cases hkind

end Script

end ScriptKinds
