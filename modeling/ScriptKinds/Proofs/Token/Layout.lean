import ScriptKinds.Token.OfSource
import ScriptKinds.Token.Stream

namespace ScriptKinds

namespace Piece

/-- The pieces of a text of at most some length, by recursion on that length,
so that they can be computed. -/
def cutWithin : Nat → Context → List Char → List Piece × Ending
  | _, context, [] =>
      ([], if context.braces.isEmpty then .complete else .faulty .unterminatedString)
  | 0, _, _ :: _ => ([], .complete)
  | bound + 1, context, c :: cs =>
      match extent context c cs with
      | .error cause => ([], .faulty cause)
      | .ok found =>
          let piece : Piece := ⟨found.kind?, c :: cs.take found.more⟩
          let rest := cutWithin bound (context.after piece) (cs.drop found.more)
          (piece :: rest.1, rest.2)

theorem cutWithin_eq {bound : Nat} {context : Context} {cs : List Char} (h : cs.length ≤ bound) :
    cutWithin bound context cs = cut context cs := by
  induction bound generalizing context cs with
  | zero =>
      obtain rfl := List.eq_nil_of_length_eq_zero (Nat.le_zero.mp h)
      rw [cutWithin, cut]
  | succ bound ih =>
      cases cs with
      | nil => rw [cutWithin, cut]
      | cons c cs =>
          have hrest (more : Nat) (context : Context) :
              cutWithin bound context (cs.drop more) = cut context (cs.drop more) := by
            apply ih
            rw [List.length_drop]
            rw [List.length_cons] at h
            omega
          rw [cutWithin, cut]
          cases extent context c cs with
          | error cause => rfl
          | ok found => simp only [hrest]

theorem text_ne_nil_of_mem_cut {context : Context} {cs : List Char} {piece : Piece}
    (h : piece ∈ (cut context cs).1) : piece.text ≠ [] := by
  fun_induction cut context cs with
  | case1 => cases h
  | case2 => cases h
  | case3 context c cs found hfound first rest ih =>
      rcases List.mem_cons.mp h with rfl | hrest
      · exact List.cons_ne_nil _ _
      · exact ih hrest

end Piece

namespace Token

/-- The tokens of a source of at most some length. -/
def ofSourceWithin (bound : Nat) (file source : String) : Except Fault (List Token) :=
  match Piece.cutWithin bound .start source.toList with
  | (pieces, .complete) => .ok (layOut 0 false pieces)
  | (pieces, .faulty cause) =>
      .error ⟨cause, Text.byteLength (Piece.join pieces), file⟩

theorem ofSourceWithin_eq {bound : Nat} {file source : String}
    (h : source.toList.length ≤ bound) :
    ofSourceWithin bound file source = ofSource file source := by
  cases hcut : Piece.cut .start source.toList with
  | mk pieces ending =>
      cases ending <;> simp [ofSourceWithin, ofSource, Piece.cutWithin_eq h, hcut]

/-- One token begins before another one. -/
def Precedes (token other : Token) : Prop :=
  token.span.start < other.span.start

theorem le_start_of_mem_layOut {token : Token} {offset : Nat} {newline : Bool}
    {pieces : List Piece} (h : token ∈ layOut offset newline pieces) :
    offset ≤ token.span.start := by
  fun_induction layOut offset newline pieces with
  | case1 offset newline =>
      obtain rfl := List.mem_singleton.mp h
      exact Nat.le_refl _
  | case2 offset newline text pieces ih =>
      have hle := ih h
      omega
  | case3 offset newline kind text pieces stop ih =>
      rcases List.mem_cons.mp h with rfl | hrest
      · exact Nat.le_refl _
      · exact Nat.le_trans (Nat.le_add_right _ _) (ih hrest)

theorem pairwise_layOut {offset : Nat} {newline : Bool} {pieces : List Piece}
    (h : ∀ piece ∈ pieces, piece.text ≠ []) : (layOut offset newline pieces).Pairwise Precedes := by
  fun_induction layOut offset newline pieces with
  | case1 => exact List.pairwise_singleton _ _
  | case2 offset newline text pieces ih =>
      exact ih fun piece hpiece => h piece (List.mem_cons_of_mem _ hpiece)
  | case3 offset newline kind text pieces stop ih =>
      have hothers := ih fun piece hpiece => h piece (List.mem_cons_of_mem _ hpiece)
      refine List.pairwise_cons.mpr ⟨?_, hothers⟩
      intro token htoken
      have hle := le_start_of_mem_layOut htoken
      have hne : text ≠ [] := h _ List.mem_cons_self
      have hpos := List.length_pos_iff.mpr hne
      have hlength := Text.length_le_byteLength text
      change offset < token.span.start
      omega

theorem getLast?_layOut (offset : Nat) (newline : Bool) (pieces : List Piece) :
    ∃ stop flag, (layOut offset newline pieces).getLast? = some (endAt stop flag) := by
  fun_induction layOut offset newline pieces with
  | case1 offset newline => exact ⟨offset, newline, rfl⟩
  | case2 offset newline text pieces ih => exact ih
  | case3 offset newline kind text pieces stop ih =>
      obtain ⟨last, flag, hlast⟩ := ih
      refine ⟨last, flag, ?_⟩
      rw [List.getLast?_cons, hlast]
      rfl

end Token

namespace TokenStream

/-- A stream in which the tokens before the one that ends the text begin one
after another. -/
structure Ordered (tokens : TokenStream) : Prop where
  ends : tokens.last.kind = .endOfInput
  precedes : ∀ place later, place < later → later < tokens.body.size →
    (tokens.get place).Precedes (tokens.get later)

theorem ordered_ofList {file source : String} {tokens : List Token}
    (h : Token.ofSource file source = .ok tokens) : (ofList tokens).Ordered := by
  obtain ⟨pieces, hcut, rfl⟩ : ∃ pieces, Piece.cut .start source.toList = (pieces, .complete) ∧
      Token.layOut 0 false pieces = tokens := by
    rw [Token.ofSource] at h
    split at h
    · rename_i pieces hcut
      cases h
      exact ⟨pieces, hcut, rfl⟩
    · cases h
  have hpairwise : (Token.layOut 0 false pieces).Pairwise Token.Precedes := by
    apply Token.pairwise_layOut
    intro piece hpiece
    have hmem : piece ∈ (Piece.cut .start source.toList).1 := by
      rw [hcut]
      exact hpiece
    exact Piece.text_ne_nil_of_mem_cut hmem
  obtain ⟨stop, flag, hlast⟩ := Token.getLast?_layOut 0 false pieces
  have hbody : (ofList (Token.layOut 0 false pieces)).body =
      (Token.layOut 0 false pieces).dropLast.toArray := by
    rw [ofList, hlast]
    rfl
  refine ⟨?_, ?_⟩
  · rw [ofList, hlast]
    rfl
  intro place later hlt hsize
  have hordered := List.pairwise_iff_getElem.mp (hpairwise.sublist (List.dropLast_sublist _))
  rw [hbody, List.size_toArray] at hsize
  have hget (k : Nat) (hk : k < (Token.layOut 0 false pieces).dropLast.length) :
      (ofList (Token.layOut 0 false pieces)).get k =
        (Token.layOut 0 false pieces).dropLast[k] := by
    rw [get, hbody, List.getElem?_toArray, List.getElem?_eq_getElem hk]
    rfl
  rw [hget place (Nat.lt_trans hlt hsize), hget later hsize]
  exact hordered place later (Nat.lt_trans hlt hsize) hsize hlt

end TokenStream

end ScriptKinds
