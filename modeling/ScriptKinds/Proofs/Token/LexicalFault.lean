import ScriptKinds.Proofs.Lexeme.Truncated
import ScriptKinds.Proofs.Lexeme.Unreadable
import ScriptKinds.Proofs.Token.Brackets

/-!
Where and why cutting a source stops.

A fault lies behind the pieces that could be cut off the source.  On its own, the text
in front of it is cut into the same pieces, so only an open substitution can be wrong
with it, and nothing can be read of the rest for the cause that is given, and for no
other.
-/

namespace ScriptKinds

open Text

namespace Piece

/-- The kinds of the lexemes that are cut off a text. -/
def lexemes (text : List Char) : List TokenKind :=
  (cut .start text).1.filterMap Piece.kind?

/-- How a text ends that was cut up to its end. -/
def endingOf (stack : List Nat) : Ending :=
  if stack.isEmpty then .complete else .faulty .unterminatedString

theorem cut_join (context : Context) (cs : List Char) :
    cut context (join (cut context cs).1) =
      ((cut context cs).1, endingOf (behind context (cut context cs).1).braces) := by
  fun_induction cut context cs with
  | case1 | case2 =>
      have hjoin : join [] = [] := rfl
      rw [hjoin, cut]
      rfl
  | case3 context c cs found hfound piece rest ih =>
      have hle := more_le_length hfound
      have htaken : (cs.take found.more).length = found.more := List.length_take_of_le hle
      have hinitial : cs.take found.more ++ join rest.1 <+: cs := by
        obtain ⟨others, hothers⟩ := join_cut_prefix (context.after piece) (cs.drop found.more)
        refine ⟨others, ?_⟩
        rw [List.append_assoc, hothers, List.take_append_drop]
      have hsame : extent context c (cs.take found.more ++ join rest.1) = .ok found := by
        apply extent_of_initial hinitial _ hfound
        rw [List.length_append]
        omega
      have hjoin : join (piece :: rest.1) = c :: (cs.take found.more ++ join rest.1) := rfl
      rw [hjoin, cut, hsame]
      dsimp only
      rw [List.take_left' htaken, List.drop_left' htaken, ih]
      rfl

theorem exists_unreadable_of_cut {context : Context} {cs : List Char} {cause : Cause}
    (h : (cut context cs).2 = .faulty cause) :
    ∃ rest, cs = join (cut context cs).1 ++ rest ∧
      Unreadable (behind context (cut context cs).1).braces rest cause := by
  fun_induction cut context cs with
  | case1 context =>
      split at h
      · cases h
      · rename_i hopen
        cases h
        exact ⟨[], rfl, .ended fun hnil => hopen (List.isEmpty_iff.mpr hnil)⟩
  | case2 context c cs cause' hextent =>
      cases h
      exact ⟨c :: cs, rfl, unreadable_of_extent hextent⟩
  | case3 context c cs found hfound piece rest ih =>
      obtain ⟨others, hothers, hunreadable⟩ := ih h
      refine ⟨others, ?_, hunreadable⟩
      change c :: cs = c :: cs.take found.more ++ join rest.1 ++ others
      rw [List.append_assoc, ← hothers, List.cons_append, List.take_append_drop]

end Piece

namespace Token

open Piece Brackets

/-- StopsAt file source fault before rest stack: the source is cut as far as its first
part goes, and no further.  The numbers are those of the open braces in the open
substitutions there, innermost first. -/
structure StopsAt (file source : String) (fault : Fault) (before rest : List Char)
    (stack : List Nat) : Prop where
  split : source.toList = before ++ rest
  position : fault.position = ⟨byteLength before, file⟩
  /-- The part before the fault is cut in the same way on its own, and as a whole. -/
  pieces : (cut .start before).1 = (cut .start source.toList).1
  whole : join (cut .start before).1 = before
  brackets : scan [] (lexemes before) = some stack
  /-- Of all causes for which nothing could be read of the rest, it is the one there is. -/
  cause : ∀ cause, Unreadable stack rest cause ↔ cause = fault.cause
  closed : stack = [] → ∃ tokens, ofSource file (String.ofList before) = .ok tokens
  opened : stack ≠ [] → ofSource file (String.ofList before) =
    .error ⟨.unterminatedString, byteLength before, file⟩

/-- A source that is not cut into tokens has a place up to which it is, and where nothing
can be read for the cause that is given. -/
theorem ofSource_stopsAt {file source : String} {fault : Fault}
    (h : ofSource file source = .error fault) :
    ∃ before rest stack, StopsAt file source fault before rest stack := by
  obtain ⟨cause, hfaulty, rfl⟩ : ∃ cause, (cut .start source.toList).2 = .faulty cause ∧
      fault = ⟨cause, byteLength (join (cut .start source.toList).1), file⟩ := by
    rw [ofSource] at h
    split at h
    · cases h
    · rename_i pieces cause hcut
      cases h
      exact ⟨cause, by rw [hcut], by rw [hcut]⟩
  obtain ⟨rest, hsplit, hunreadable⟩ := exists_unreadable_of_cut hfaulty
  have hbefore := cut_join .start source.toList
  obtain ⟨pieces, hpieces⟩ : ∃ pieces, (cut .start source.toList).1 = pieces := ⟨_, rfl⟩
  rw [hpieces] at hsplit hunreadable hbefore ⊢
  refine ⟨join pieces, rest, (behind .start pieces).braces, hsplit, rfl, ?_, ?_, ?_,
    fun other => ⟨fun hother => hunreadable.unique hother, fun hother => hother ▸ hunreadable⟩,
    fun hstack => ?_, fun hstack => ?_⟩
  · rw [hbefore, hpieces]
  · rw [hbefore]
  · rw [lexemes, hbefore]
    exact scan_cut pieces [] (by rw [hpieces, List.append_nil])
  · refine ⟨layOut 0 false pieces, ?_⟩
    rw [ofSource, String.toList_ofList, hbefore, hstack]
    rfl
  · rw [ofSource, String.toList_ofList, hbefore, endingOf, if_neg (mt List.isEmpty_iff.mp hstack)]

/-- A character that starts nothing, in the substitution of a template. -/
theorem stopsAt_in_substitution :
    ofSource "open.js" "`é$\x7b\x7b\x7d+#\x7d`" = .error ⟨.unrecognised "#", 8, "open.js"⟩ ∧
      ∃ before rest stack, StopsAt "open.js" "`é$\x7b\x7b\x7d+#\x7d`"
        ⟨.unrecognised "#", 8, "open.js"⟩ before rest stack := by
  have hfault : ofSource "open.js" "`é$\x7b\x7b\x7d+#\x7d`" =
      .error ⟨.unrecognised "#", 8, "open.js"⟩ := by
    have hlength : "`é$\x7b\x7b\x7d+#\x7d`".toList.length ≤ 10 := by decide
    rw [← ofSourceWithin_eq hlength]
    rfl
  exact ⟨hfault, ofSource_stopsAt hfault⟩

end Token

end ScriptKinds
