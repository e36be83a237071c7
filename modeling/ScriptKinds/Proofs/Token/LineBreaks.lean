import ScriptKinds.Proofs.Token.Respacing

namespace ScriptKinds

namespace Token

open Text Piece

section Gap

variable {earlier later : List Token} {token : Token}

/-- What the pieces of a text put in front of a token.  A mark that is carried
into the pieces goes to the first token alone. -/
theorem exists_gap_of_layOut {offset : Nat} {newline : Bool} {pieces : List Piece}
    {before : List Char} (hbefore : byteLength before = offset)
    (h : layOut offset newline pieces = earlier ++ token :: later) :
    ∃ head gap rest,
      Around (before ++ join pieces) ⟨stopOf offset earlier, token.span.start⟩ head gap rest ∧
        (earlier = [] → head = before ∧
          (token.newlineBefore = true ↔ newline = true ∨ '\n' ∈ gap)) ∧
        (earlier ≠ [] → (token.newlineBefore = true ↔ '\n' ∈ gap)) := by
  induction pieces generalizing offset newline before earlier with
  | nil =>
      obtain ⟨rfl, rfl⟩ : earlier = [] ∧ endAt offset newline = token := by
        cases earlier with
        | nil => exact ⟨rfl, (List.cons.inj h).1⟩
        | cons first earlier => simp [layOut] at h
      refine ⟨before, [], [], ⟨by simp [join], hbefore, ?_⟩, fun _ => ⟨rfl, ?_⟩, absurd rfl⟩
      · rw [List.append_nil, hbefore]
        rfl
      · simp [endAt]
  | cons piece pieces ih =>
      obtain ⟨kind?, text⟩ := piece
      have hreached : byteLength (before ++ text) = offset + byteLength text := by
        rw [byteLength_append, hbefore]
      have hjoin : before ++ text ++ join pieces = before ++ join (⟨kind?, text⟩ :: pieces) := by
        simp [join]
      cases kind? with
      | none =>
          obtain ⟨head, gap, rest, haround, hfirst, hlater⟩ := ih hreached h
          rw [hjoin] at haround
          cases earlier with
          | nil =>
              obtain ⟨rfl, hmark⟩ := hfirst rfl
              refine ⟨before, text ++ gap, rest, ⟨?_, hbefore, ?_⟩, fun _ => ⟨rfl, ?_⟩, absurd rfl⟩
              · rw [haround.eq, List.append_assoc before]
              · rw [← List.append_assoc]
                exact haround.stop
              · rw [hmark, Bool.or_eq_true, List.contains_iff_mem, List.mem_append, or_assoc]
          | cons first earlier =>
              rw [stopOf_cons] at haround ⊢
              exact ⟨head, gap, rest, haround, fun h => absurd h (List.cons_ne_nil _ _), hlater⟩
      | some kind =>
          cases earlier with
          | nil =>
              obtain ⟨rfl, -⟩ := List.cons.inj h
              refine ⟨before, [], join (⟨some kind, text⟩ :: pieces), ⟨by simp, hbefore, ?_⟩,
                fun _ => ⟨rfl, by simp⟩, absurd rfl⟩
              rw [List.append_nil, hbefore]
          | cons first earlier =>
              obtain ⟨rfl, hothers⟩ := List.cons.inj h
              obtain ⟨head, gap, rest, haround, hfirst, hlater⟩ := ih hreached hothers
              rw [hjoin] at haround
              rw [stopOf_cons]
              refine ⟨head, gap, rest, haround, fun h => absurd h (List.cons_ne_nil _ _),
                fun _ => ?_⟩
              by_cases hnil : earlier = []
              · simpa using (hfirst hnil).2
              · exact hlater hnil

end Gap

theorem le_stopOf {offset : Nat} {tokens : List Token}
    (hstarts : ∀ token ∈ tokens, offset ≤ token.span.start)
    (hspans : ∀ token ∈ tokens, token.span.start ≤ token.span.stop) :
    offset ≤ stopOf offset tokens := by
  rw [stopOf]
  cases hlast : tokens.getLast? with
  | none => exact Nat.le_refl _
  | some token =>
      have hmem := List.mem_of_getLast? hlast
      exact Nat.le_trans (hstarts token hmem) (hspans token hmem)

theorem stop_le_stopOf {offset : Nat} {tokens : List Token}
    (hordered : tokens.Pairwise fun token later => token.span.stop ≤ later.span.start)
    (hspans : ∀ token ∈ tokens, token.span.start ≤ token.span.stop) {token : Token}
    (htoken : token ∈ tokens) : token.span.stop ≤ stopOf offset tokens := by
  induction tokens generalizing offset with
  | nil => cases htoken
  | cons first others ih =>
      rw [stopOf_cons]
      obtain ⟨hfirst, hothers⟩ := List.pairwise_cons.mp hordered
      have hrest : ∀ later ∈ others, later.span.start ≤ later.span.stop :=
        fun later hlater => hspans later (List.mem_cons_of_mem _ hlater)
      rcases List.mem_cons.mp htoken with rfl | hmem
      · exact le_stopOf hfirst hrest
      · exact ih hothers hrest hmem

/-- A token is marked to follow a line break exactly if a line feed stands in the
source behind the token before it, among the blanks and comments there.  All
that other tokens cover, such as the text of a template, lies elsewhere. -/
theorem newlineBefore_of_ofSource {file source : String} {tokens earlier later : List Token}
    {token : Token} (h : ofSource file source = .ok tokens)
    (htokens : tokens = earlier ++ token :: later) :
    (∃ head gap rest,
      Around source.toList ⟨stopOf 0 earlier, token.span.start⟩ head gap rest ∧ Gaps gap rest ∧
        (token.newlineBefore = true ↔ '\n' ∈ gap)) ∧
      ∀ other ∈ tokens,
        other.span.stop ≤ stopOf 0 earlier ∨ token.span.start ≤ other.span.start := by
  have hlossless := ofSource_lossless h
  obtain ⟨head, gap, rest, haround, hgaps⟩ := hlossless.gaps earlier token later htokens
  obtain ⟨pieces, -, hjoin, hlaid⟩ := cuts_of_ofSource h
  refine ⟨⟨head, gap, rest, haround, hgaps, ?_⟩, ?_⟩
  · obtain ⟨front, between, behind, hbetween, hfirst, hlater⟩ :=
      exists_gap_of_layOut byteLength_nil (hlaid.trans htokens)
    rw [List.nil_append, hjoin] at hbetween
    -- Both stretches of the source lie between the same two offsets.
    obtain rfl : between = gap := (slice_eq hbetween).symm.trans (slice_eq haround)
    by_cases hnil : earlier = []
    · simpa using (hfirst hnil).2
    · exact hlater hnil
  · have hspan : ∀ other ∈ tokens, other.span.start ≤ other.span.stop := by
      intro other hother
      by_cases hkind : other.kind = .endOfInput
      · obtain ⟨body, newline, rfl, hbody⟩ := hlossless.ends
        rcases List.mem_append.mp hother with hbefore | hlast
        · exact absurd hkind (hbody other hbefore)
        · obtain rfl := List.mem_singleton.mp hlast
          exact Nat.le_refl _
      · exact Nat.le_of_lt (hlossless.spans other hother hkind).1
    have hordered := hlossless.ordered
    rw [htokens] at hordered hspan
    obtain ⟨hearlier, hothers, -⟩ := List.pairwise_append.mp hordered
    intro other hother
    rw [htokens] at hother
    rcases List.mem_append.mp hother with hbefore | hbehind
    · left
      exact stop_le_stopOf hearlier (fun first hfirst => hspan first (by simp [hfirst])) hbefore
    · right
      rcases List.mem_cons.mp hbehind with rfl | hafter
      · exact Nat.le_refl _
      · have hstop := (List.pairwise_cons.mp hothers).1 other hafter
        have hstart := hspan token (by simp)
        omega

/-- The line feed in the comment counts for the template, and that in the
template does not count for the word behind it. -/
theorem newlineBefore_around_template :
    ofSource "breaks.js" "a/*\n*/`\n`b" = .ok
        [⟨.identifier, "a", ⟨0, 1⟩, false⟩, ⟨.template, "\n", ⟨6, 9⟩, true⟩,
          ⟨.identifier, "b", ⟨9, 10⟩, false⟩, .endAt 10 false] ∧
      (∃ head gap rest, Around "a/*\n*/`\n`b".toList ⟨1, 6⟩ head gap rest ∧ Gaps gap rest ∧
        '\n' ∈ gap) ∧
      ∃ head gap rest, Around "a/*\n*/`\n`b".toList ⟨9, 9⟩ head gap rest ∧ Gaps gap rest ∧
        '\n' ∉ gap := by
  have htokens : ofSource "breaks.js" "a/*\n*/`\n`b" = .ok
      [⟨.identifier, "a", ⟨0, 1⟩, false⟩, ⟨.template, "\n", ⟨6, 9⟩, true⟩,
        ⟨.identifier, "b", ⟨9, 10⟩, false⟩, .endAt 10 false] := by
    have hlength : "a/*\n*/`\n`b".toList.length ≤ 10 := by decide
    rw [← ofSourceWithin_eq hlength]
    rfl
  have hword : ∀ first second third last : Token,
      [first, second, third, last] = [first, second] ++ third :: [last] := fun _ _ _ _ => rfl
  obtain ⟨head, gap, rest, haround, hgaps, hmark⟩ :=
    (newlineBefore_of_ofSource htokens List.singleton_append.symm).1
  obtain ⟨head', gap', rest', haround', hgaps', hmark'⟩ :=
    (newlineBefore_of_ofSource htokens (hword _ _ _ _)).1
  refine ⟨htokens, ⟨head, gap, rest, haround, hgaps, hmark.mp rfl⟩,
    head', gap', rest', haround', hgaps', fun hline => ?_⟩
  exact absurd (hmark'.mpr hline) (by decide)

end Token

end ScriptKinds
