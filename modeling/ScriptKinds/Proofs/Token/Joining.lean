import ScriptKinds.Proofs.Lexeme.Continued
import ScriptKinds.Proofs.Token.Respacing

namespace ScriptKinds

namespace Token

open Text Piece

/-- A token as it stands some bytes further on. -/
def shift (bytes : Nat) (token : Token) : Token :=
  { token with span := ⟨token.span.start + bytes, token.span.stop + bytes⟩ }

/-- A token as it stands behind a line break. -/
def onNewLine (token : Token) : Token :=
  { token with newlineBefore := true }

/-! ### Laying out -/

theorem layOut_shift (bytes offset : Nat) (newline : Bool) (pieces : List Piece) :
    layOut (offset + bytes) newline pieces = (layOut offset newline pieces).map (shift bytes) := by
  induction pieces generalizing offset newline with
  | nil => rfl
  | cons piece pieces ih =>
      obtain ⟨kind?, text⟩ := piece
      have hreached : offset + bytes + byteLength text = offset + byteLength text + bytes := by
        omega
      cases kind? with
      | none => rw [layOut, layOut, hreached, ih]
      | some kind =>
          simp only [layOut, List.map_cons]
          rw [hreached, ih]
          rfl

theorem layOut_onNewLine (offset : Nat) (newline : Bool) (pieces : List Piece) :
    (layOut offset newline pieces).modifyHead onNewLine = layOut offset true pieces := by
  induction pieces generalizing offset newline with
  | nil => rfl
  | cons piece pieces ih =>
      obtain ⟨kind?, text⟩ := piece
      cases kind? with
      | none => rw [layOut, layOut, ih, Bool.true_or]
      | some kind => rfl

theorem layOut_ne_nil (offset : Nat) (newline : Bool) (pieces : List Piece) :
    layOut offset newline pieces ≠ [] := by
  obtain ⟨stop, flag, hlast⟩ := getLast?_layOut offset newline pieces
  intro hnil
  rw [hnil] at hlast
  cases hlast

theorem layOut_append (offset : Nat) (newline : Bool) (pieces others : List Piece) :
    ∃ flag, layOut offset newline (pieces ++ others) =
      (layOut offset newline pieces).dropLast ++
        layOut (offset + byteLength (join pieces)) flag others := by
  induction pieces generalizing offset newline with
  | nil => exact ⟨newline, rfl⟩
  | cons piece pieces ih =>
      obtain ⟨kind?, text⟩ := piece
      have hreached : offset + byteLength (join (⟨kind?, text⟩ :: pieces)) =
          offset + byteLength text + byteLength (join pieces) := by
        simp [join, Nat.add_assoc]
      rw [hreached]
      cases kind? with
      | none => exact ih _ _
      | some kind =>
          obtain ⟨flag, hflag⟩ := ih (offset + byteLength text) false
          refine ⟨flag, ?_⟩
          simp only [List.cons_append, layOut]
          rw [hflag, List.dropLast_cons_of_ne_nil (layOut_ne_nil _ _ _), List.cons_append]

theorem previous?_foldl_after (context : Context) (offset : Nat) (newline : Bool)
    (pieces : List Piece) :
    (pieces.foldl Context.after context).previous? =
      ((layOut offset newline pieces).dropLast.getLast?.map (·.kind)).or context.previous? := by
  induction pieces generalizing context offset newline with
  | nil => rfl
  | cons piece pieces ih =>
      obtain ⟨kind?, text⟩ := piece
      rw [List.foldl_cons]
      cases kind? with
      | none => exact ih context _ _
      | some kind =>
          rw [ih _ (offset + byteLength text) false, layOut,
            List.dropLast_cons_of_ne_nil (layOut_ne_nil _ _ _), List.getLast?_cons]
          cases (layOut (offset + byteLength text) false pieces).dropLast.getLast? <;> rfl

theorem head?_layOut (offset : Nat) (newline : Bool) (pieces : List Piece) :
    (layOut offset newline pieces).head?.map (·.kind) =
      some ((pieces.findSome? Piece.kind?).getD .endOfInput) := by
  induction pieces generalizing offset newline with
  | nil => rfl
  | cons piece pieces ih =>
      obtain ⟨kind?, text⟩ := piece
      cases kind? with
      | none => exact ih _ _
      | some kind => rfl

end Token

namespace Piece.Cuts

open Text Lexeme Token

variable {context other : Context} {cs : List Char} {pieces : List Piece}

theorem braces_eq_nil (h : Cuts context cs pieces) :
    (pieces.foldl Context.after context).braces = [] := by
  induction h with
  | done hclosed => exact List.isEmpty_iff.mp hclosed
  | gap _ _ ih => exact ih
  | lexeme _ _ ih => exact ih

/-- What can be cut at the beginning of a source can be cut behind other tokens,
unless it starts with a regular expression where none may stand. -/
theorem congr (h : Cuts context cs pieces) (hbraces : other.braces = context.braces)
    (hallowed : context.regexAllowed = true)
    (hregex : pieces.findSome? Piece.kind? = some .regex → other.regexAllowed = true) :
    Cuts other cs pieces := by
  induction h with
  | done hclosed => exact .done (by rwa [hbraces])
  | gap hfound _ ih =>
      exact .gap (extent_congr hbraces hallowed nofun hfound) (ih hbraces hallowed hregex)
  | lexeme hfound hrest _ =>
      refine .lexeme (extent_congr hbraces hallowed hregex hfound) ?_
      rwa [hbraces]

theorem separates_self {blanks : List Char} (hne : blanks ≠ [])
    (hblank : ∀ c ∈ blanks, isBlank c = true) : Separates (blanks.contains '\n') blanks :=
  ⟨hne, hblank, List.contains_iff_mem.symm⟩

/-- Blanks in front of a text are a gap, or a part of the gap with which the text
begins. -/
theorem prepend {blanks : List Char} (hne : blanks ≠ [])
    (hblank : ∀ c ∈ blanks, isBlank c = true) (h : Cuts context cs pieces) :
    ∃ merged, Cuts context (blanks ++ cs) merged ∧ ∀ offset newline,
      layOut offset newline merged = layOut offset newline (⟨none, blanks⟩ :: pieces) := by
  by_cases hhead : ∀ c ∈ cs.head?, isBlank c = false
  · exact ⟨_, h.blanks (separates_self hne hblank) hhead, fun _ _ => rfl⟩
  cases h with
  | done => simp at hhead
  | @lexeme _ c cs kind more pieces hfound _ =>
      refine absurd ?_ hhead
      rintro d hd
      obtain rfl : c = d := by simpa using hd
      exact not_isBlank_of_extent hfound
  | @gap _ c cs more pieces hfound hrest =>
      -- The blanks at the start of the text and those in front of it make one run.
      have hc : isBlank c = true := by simpa using hhead
      obtain ⟨hrun, hends⟩ := blanks_of_gap hc hfound
      have hspace : ∀ d ∈ blanks ++ c :: cs.take more, isBlank d = true := by
        intro d hd
        rcases List.mem_append.mp hd with hfirst | hlater
        · exact hblank d hfirst
        · exact hrun d hlater
      have hwhole := hrest.blanks (separates_self (by simp) hspace) hends
      rw [List.append_assoc, List.cons_append, List.take_append_drop] at hwhole
      refine ⟨_, hwhole, fun offset newline => ?_⟩
      have hline : (newline || (blanks ++ c :: cs.take more).contains '\n') =
          (newline || blanks.contains '\n' || (c :: cs.take more).contains '\n') := by
        rw [List.contains_append, Bool.or_assoc]
      rw [layOut, layOut, layOut, hline, byteLength_append, Nat.add_assoc]

/-- A text that can be cut can be cut when it goes on on another line, if that can
be cut behind it.  The pieces at the seam may merge, which the tokens do not
show. -/
theorem append_line {rest : List Char} {others : List Piece} (h : Cuts context cs pieces)
    (hothers : Cuts (pieces.foldl Context.after context) ('\n' :: rest) others) :
    ∃ merged, Cuts context (cs ++ '\n' :: rest) merged ∧ ∀ offset newline,
      layOut offset newline merged = layOut offset newline (pieces ++ others) := by
  induction h with
  | done => exact ⟨others, hothers, fun _ _ => rfl⟩
  | @gap context c cs more pieces hfound hrest ih =>
      obtain ⟨merged, hmerged, hlaid⟩ := ih hothers
      by_cases hblank : isBlank c = true
      · obtain ⟨whole, hwhole, hsame⟩ :=
          hmerged.prepend (List.cons_ne_nil _ _) (blanks_of_gap hblank hfound).1
        rw [← List.append_assoc, List.cons_append, List.take_append_drop] at hwhole
        refine ⟨whole, hwhole, fun offset newline => ?_⟩
        rw [hsame, List.cons_append, layOut, layOut, hlaid]
      · rw [Bool.not_eq_true] at hblank
        have hle := slashExtent_gap_le (slashExtent_of_gap hblank hfound).2
        rw [← List.drop_append_of_le_length hle] at hmerged
        have hgap := Cuts.gap (extent_line hblank hfound rest) hmerged
        rw [List.take_append_of_le_length hle] at hgap
        refine ⟨_, hgap, fun offset newline => ?_⟩
        rw [List.cons_append, layOut, layOut, hlaid]
  | @lexeme context c cs kind more pieces hfound hrest ih =>
      obtain ⟨merged, hmerged, hlaid⟩ := ih hothers
      have hle := extent_le hfound
      rw [← List.drop_append_of_le_length hle] at hmerged
      have hlexeme := Cuts.lexeme (extent_line (not_isBlank_of_extent hfound) hfound rest) hmerged
      rw [List.take_append_of_le_length hle] at hlexeme
      refine ⟨_, hlexeme, fun offset newline => ?_⟩
      rw [List.cons_append, layOut, layOut, hlaid]

end Piece.Cuts

namespace Token

open Text Piece

theorem foldl_after_start {cs : List Char} {pieces : List Piece} (h : Cuts .start cs pieces) :
    pieces.foldl Context.after .start =
      ⟨(layOut 0 false pieces).dropLast.getLast?.map (·.kind), []⟩ := by
  have hprevious := previous?_foldl_after .start 0 false pieces
  have hbraces := h.braces_eq_nil
  rw [show Context.start.previous? = none from rfl, Option.or_none] at hprevious
  cases hfold : pieces.foldl Context.after .start with
  | mk previous? braces =>
      rw [hfold] at hbraces hprevious
      rw [← hprevious, ← hbraces]

/-- Two sources can be joined by a line feed.  The tokens are those of the first
one without the token that ends it, and behind them those of the second one,
further on and the first of them on a new line.  The exception is a second source
that starts with a regular expression where a slash behind the first one divides. -/
theorem ofSource_join {file first second : String} {tokens others : List Token}
    (hfirst : ofSource file first = .ok tokens) (hsecond : ofSource file second = .ok others)
    (hregex : others.head?.map (·.kind) = some .regex →
      (Context.mk (tokens.dropLast.getLast?.map (·.kind)) []).regexAllowed = true) :
    ofSource file (first ++ "\n" ++ second) = .ok
      (tokens.dropLast ++
        (others.map (shift (first.utf8ByteSize + 1))).modifyHead onNewLine) := by
  obtain ⟨pieces, hpieces, hjoin, rfl⟩ := cuts_of_ofSource hfirst
  obtain ⟨behind, hbehind, -, rfl⟩ := cuts_of_ofSource hsecond
  have hother : Cuts (pieces.foldl Context.after .start) second.toList behind := by
    refine hbehind.congr hpieces.braces_eq_nil rfl fun hkind => ?_
    rw [foldl_after_start hpieces]
    apply hregex
    rw [head?_layOut, hkind]
    rfl
  have hblank : ∀ c ∈ ['\n'], isBlank c = true := by
    intro c hc
    rw [List.mem_singleton.mp hc]
    rfl
  obtain ⟨lines, hlines, hlinesLaid⟩ := hother.prepend (List.cons_ne_nil '\n' []) hblank
  obtain ⟨merged, hmerged, hmergedLaid⟩ := hpieces.append_line hlines
  obtain ⟨flag, hflag⟩ := layOut_append 0 false pieces lines
  have hwhole : Cuts .start (first ++ "\n" ++ second).toList merged := by
    simpa using hmerged
  have hbytes : 0 + byteLength (join pieces) = first.utf8ByteSize := by
    rw [hjoin, byteLength_toList, Nat.zero_add]
  have hline : layOut first.utf8ByteSize flag (⟨none, ['\n']⟩ :: behind) =
      layOut (0 + (first.utf8ByteSize + 1)) true behind := by
    rw [layOut, Nat.zero_add, show ['\n'].contains '\n' = true from rfl, Bool.or_true]
    rfl
  rw [ofSource_of_cuts hwhole, hmergedLaid, hflag, hbytes, hlinesLaid, hline,
    ← layOut_onNewLine _ false, layOut_shift]

/-- A comment ends with its line, and behind an operator a regular expression can
follow on the next one. -/
theorem ofSource_join_behind_operator :
    ofSource "lines.js" "'é'+// one " = .ok
        [⟨.string, "é", ⟨0, 4⟩, false⟩, ⟨.plus, "+", ⟨4, 5⟩, false⟩, .endAt 12 false] ∧
      ofSource "lines.js" " /b/g" = .ok [⟨.regex, "/b/g", ⟨1, 5⟩, false⟩, .endAt 5 false] ∧
      ofSource "lines.js" "'é'+// one \n /b/g" = .ok
        [⟨.string, "é", ⟨0, 4⟩, false⟩, ⟨.plus, "+", ⟨4, 5⟩, false⟩,
          ⟨.regex, "/b/g", ⟨14, 18⟩, true⟩, .endAt 18 false] := by
  have hfirst : ofSource "lines.js" "'é'+// one " = .ok
      [⟨.string, "é", ⟨0, 4⟩, false⟩, ⟨.plus, "+", ⟨4, 5⟩, false⟩, .endAt 12 false] := by
    have hlength : "'é'+// one ".toList.length ≤ 11 := by decide
    rw [← ofSourceWithin_eq hlength]
    rfl
  have hsecond : ofSource "lines.js" " /b/g" = .ok
      [⟨.regex, "/b/g", ⟨1, 5⟩, false⟩, .endAt 5 false] := by
    have hlength : " /b/g".toList.length ≤ 5 := by decide
    rw [← ofSourceWithin_eq hlength]
    rfl
  exact ⟨hfirst, hsecond, ofSource_join hfirst hsecond fun _ => by decide⟩

/-- Behind a name a slash divides, even on the next line. -/
example : (ofSourceWithin 6 "lines.js" "a\n/b/g").map (·.map (·.kind)) =
    .ok [.identifier, .slash, .identifier, .slash, .identifier, .endOfInput] := rfl

end Token

end ScriptKinds
