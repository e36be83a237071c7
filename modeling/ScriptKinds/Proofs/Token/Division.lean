import ScriptKinds.Proofs.Token.Brackets
import ScriptKinds.Proofs.Token.Joining

namespace ScriptKinds

open Text Lexeme

/-- The last lexeme has not opened a substitution, unless one is open. -/
def Context.Tracks (context : Context) : Prop :=
  context.previous? ∈ [some .templateHead, some .templateMiddle] → context.braces ≠ []

namespace Piece

variable {context : Context} {cs : List Char} {pieces : List Piece}

theorem tracks_of_extent {c : Char} {kind : TokenKind} {more : Nat}
    (h : extent context c cs = .ok ⟨some kind, more⟩) :
    Context.Tracks ⟨some kind, Context.bracesAfter kind context.braces⟩ := by
  intro hkind hbraces
  simp only [List.mem_cons, Option.some.injEq, List.not_mem_nil, or_false] at hkind
  rcases hkind with rfl | rfl
  · cases hbraces
  · -- What resumes a template stands where a substitution is open.
    have hopen : context.braces ≠ [] := by
      have hfits := fits_extent h rfl
      intro hnil
      simp [Context.closesSubstitution, hnil] at hfits
    cases hcontext : context.braces with
    | nil => exact hopen hcontext
    | cons depth outer =>
        rw [hcontext] at hbraces
        cases hbraces

theorem Cuts.tracks (h : Cuts context cs pieces) (htracks : context.Tracks) :
    (pieces.foldl Context.after context).Tracks := by
  induction h with
  | done => exact htracks
  | gap _ _ ih => exact ih htracks
  | lexeme hextent _ ih => exact ih (tracks_of_extent hextent)

theorem cuts_of_cutWithin {bound : Nat} (hlength : cs.length ≤ bound)
    (h : cutWithin bound context cs = (pieces, .complete)) : Cuts context cs pieces := by
  rw [cutWithin_eq hlength] at h
  have hcomplete : (cut context cs).2 = .complete := by rw [h]
  have hcuts := cuts_of_complete hcomplete
  rwa [h] at hcuts

theorem cuts_divisions (hbraces : context.braces = []) (hregex : context.regexAllowed = false) :
    Cuts context ['\n', '/', ' ', 'a', ' ', '/', ' ', 'b']
      [⟨none, ['\n']⟩, ⟨some .slash, ['/']⟩, ⟨none, [' ']⟩, ⟨some .identifier, ['a']⟩,
        ⟨none, [' ']⟩, ⟨some .slash, ['/']⟩, ⟨none, [' ']⟩, ⟨some .identifier, ['b']⟩] := by
  have hline : extent context '\n' ['/', ' ', 'a', ' ', '/', ' ', 'b'] = .ok ⟨none, 0⟩ := rfl
  have hslash : extent context '/' [' ', 'a', ' ', '/', ' ', 'b'] = .ok ⟨some .slash, 0⟩ := by
    have hextent : extent context '/' [' ', 'a', ' ', '/', ' ', 'b'] =
      slashExtent context [' ', 'a', ' ', '/', ' ', 'b'] := rfl
    rw [hextent, slashExtent_of_head (by decide) (by decide), hregex]
    rfl
  refine .gap hline (.lexeme hslash ?_)
  rw [hbraces]
  exact cuts_of_cutWithin (Nat.le_refl 6) rfl

theorem cuts_regex (hbraces : context.braces = []) (hregex : context.regexAllowed = true) :
    Cuts context ['\n', '/', ' ', 'a', ' ', '/', ' ', 'b']
      [⟨none, ['\n']⟩, ⟨some .regex, ['/', ' ', 'a', ' ', '/']⟩, ⟨none, [' ']⟩,
        ⟨some .identifier, ['b']⟩] := by
  have hline : extent context '\n' ['/', ' ', 'a', ' ', '/', ' ', 'b'] = .ok ⟨none, 0⟩ := rfl
  have hslash : extent context '/' [' ', 'a', ' ', '/', ' ', 'b'] = .ok ⟨some .regex, 4⟩ := by
    have hextent : extent context '/' [' ', 'a', ' ', '/', ' ', 'b'] =
      slashExtent context [' ', 'a', ' ', '/', ' ', 'b'] := rfl
    rw [hextent, slashExtent_of_head (by decide) (by decide), hregex]
    rfl
  refine .gap hline (.lexeme hslash ?_)
  rw [hbraces]
  exact cuts_of_cutWithin (Nat.le_refl 2) rfl

end Piece

namespace Token

open Piece

variable {file source : String} {tokens : List Token}

/-- A source whose text goes on on another line, if that can be cut behind its
last token. -/
theorem ofSource_line (h : ofSource file source = .ok tokens) {rest : String} {others : List Piece}
    (hothers : Cuts ⟨tokens.dropLast.getLast?.map (·.kind), []⟩ ('\n' :: rest.toList)
      (⟨none, ['\n']⟩ :: others)) :
    ofSource file (source ++ "\n" ++ rest) =
      .ok (tokens.dropLast ++ layOut (source.utf8ByteSize + 1) true others) := by
  obtain ⟨pieces, hpieces, hjoin, rfl⟩ := cuts_of_ofSource h
  rw [← foldl_after_start hpieces] at hothers
  obtain ⟨merged, hmerged, hlaid⟩ := hpieces.append_line hothers
  obtain ⟨flag, hflag⟩ := layOut_append 0 false pieces (⟨none, ['\n']⟩ :: others)
  have hwhole : Cuts .start (source ++ "\n" ++ rest).toList merged := by simpa using hmerged
  have hbreak : ['\n'].contains '\n' = true := rfl
  rw [ofSource_of_cuts hwhole, hlaid, hflag, hjoin, byteLength_toList, Nat.zero_add, layOut, hbreak,
    Bool.or_true]
  rfl

/-- The tokens of two divisions behind a line break. -/
def divisions (start : Nat) : List Token :=
  [⟨.slash, "/", ⟨start + 1, start + 2⟩, true⟩, ⟨.identifier, "a", ⟨start + 3, start + 4⟩, false⟩,
    ⟨.slash, "/", ⟨start + 5, start + 6⟩, false⟩, ⟨.identifier, "b", ⟨start + 7, start + 8⟩, false⟩,
    endAt (start + 8) false]

/-- The tokens of a regular expression behind a line break and of a name. -/
def regexThenName (start : Nat) : List Token :=
  [⟨.regex, "/ a /", ⟨start + 1, start + 6⟩, true⟩,
    ⟨.identifier, "b", ⟨start + 7, start + 8⟩, false⟩, endAt (start + 8) false]

/-- Behind the last token of a source a slash on the next line divides, or it begins
a regular expression. -/
theorem ofSource_slash (h : ofSource file source = .ok tokens) {kind : TokenKind}
    (hlast : tokens.dropLast.getLast?.map (·.kind) = some kind) :
    ofSource file (source ++ "\n" ++ "/ a / b") = .ok (tokens.dropLast ++
      if Context.operandEnds.contains kind then divisions source.utf8ByteSize
      else regexThenName source.utf8ByteSize) := by
  have hrest : "/ a / b".toList = ['/', ' ', 'a', ' ', '/', ' ', 'b'] := rfl
  have hallowed : (Context.mk (tokens.dropLast.getLast?.map (·.kind)) []).regexAllowed =
      !Context.operandEnds.contains kind := by
    rw [hlast]
    rfl
  split
  · rename_i hoperand
    have hcuts := cuts_divisions rfl (hallowed.trans (by rw [hoperand]; rfl))
    rw [← hrest] at hcuts
    exact ofSource_line h hcuts
  · rename_i hoperand
    rw [Bool.not_eq_true] at hoperand
    have hcuts := cuts_regex rfl (hallowed.trans (by rw [hoperand]; rfl))
    rw [← hrest] at hcuts
    exact ofSource_line h hcuts

/-- No source ends within a template. -/
theorem last_kind_of_ofSource (h : ofSource file source = .ok tokens) :
    tokens.dropLast.getLast?.map (·.kind) ∉ [some .templateHead, some .templateMiddle] := by
  obtain ⟨pieces, hpieces, -, rfl⟩ := cuts_of_ofSource h
  have htracks := hpieces.tracks fun hkind => absurd hkind (by decide)
  rw [foldl_after_start hpieces] at htracks
  exact fun hkind => htracks hkind rfl

end Token

end ScriptKinds
