import ScriptKinds.Proofs.Lexeme.Shape
import ScriptKinds.Proofs.Token.Layout

/-!
The brackets in the tokens of a source.

Scanning the tokens keeps the number of open braces in each open substitution,
innermost first.  The lexemes of a text never break the rules of the scan, and
tokens that obey them are nested: what stands in a substitution has balanced
braces and complete templates only.
-/

namespace ScriptKinds

namespace Brackets

/-- What a token makes of the numbers of open braces in the open substitutions,
if it may stand there. -/
def step : List Nat → TokenKind → Option (List Nat)
  | stack, .templateHead => some (0 :: stack)
  | top :: outer, .openCurly => some ((top + 1) :: outer)
  | 0 :: _, .closeCurly => none
  | (top + 1) :: outer, .closeCurly => some (top :: outer)
  | 0 :: outer, .templateMiddle => some (0 :: outer)
  | _, .templateMiddle => none
  | 0 :: outer, .templateTail => some outer
  | _, .templateTail => none
  | stack, _ => some stack

/-- What is open behind tokens of some kinds, if each closes only what was opened last. -/
def scan (stack : List Nat) (kinds : List TokenKind) : Option (List Nat) :=
  kinds.foldlM step stack

theorem scan_cons_eq_some {stack final : List Nat} {kind : TokenKind} {others : List TokenKind} :
    scan stack (kind :: others) = some final ↔
      ∃ next, step stack kind = some next ∧ scan next others = some final := by
  rw [scan, List.foldlM_cons, Option.bind_eq_bind, Option.bind_eq_some_iff]
  rfl

/-- The kinds of token that the scan passes over. -/
def isPlain : TokenKind → Bool
  | .openCurly | .closeCurly | .templateHead | .templateMiddle | .templateTail => false
  | _ => true

theorem step_plain {kind : TokenKind} (h : isPlain kind = true) (stack : List Nat) :
    step stack kind = some stack := by
  cases kind with
  | openCurly | closeCurly | templateHead | templateMiddle | templateTail => cases h
  | _ => cases stack <;> rfl

theorem plain_or_bracket (kind : TokenKind) :
    isPlain kind = true ∨ kind = .openCurly ∨ kind = .templateHead ∨
      kind ∈ [.closeCurly, .templateMiddle, .templateTail] := by
  cases kind <;> decide

section Nesting

mutual

/-- The tokens of a substitution. -/
inductive Enclosed : List TokenKind → Prop where
  | nil : Enclosed []
  | plain {kind : TokenKind} {others : List TokenKind} (hkind : isPlain kind = true)
      (hothers : Enclosed others) : Enclosed (kind :: others)
  | braces {inner others : List TokenKind} (hinner : Enclosed inner) (hothers : Enclosed others) :
      Enclosed (.openCurly :: (inner ++ .closeCurly :: others))
  | template {parts others : List TokenKind} (hparts : Substituted parts)
      (hothers : Enclosed others) : Enclosed (.templateHead :: (parts ++ others))

/-- The tokens of a template behind its head. -/
inductive Substituted : List TokenKind → Prop where
  | last {inner : List TokenKind} (hinner : Enclosed inner) :
      Substituted (inner ++ [.templateTail])
  | next {inner others : List TokenKind} (hinner : Enclosed inner)
      (hothers : Substituted others) : Substituted (inner ++ .templateMiddle :: others)

end

/-- Tokens outside of all templates, where braces need not be balanced, with
complete templates between them. -/
inductive Nested : List TokenKind → Prop where
  | nil : Nested []
  | single {kind : TokenKind} {others : List TokenKind}
      (hkind : kind ∉ [.templateHead, .templateMiddle, .templateTail]) (hothers : Nested others) :
      Nested (kind :: others)
  | template {parts others : List TokenKind} (hparts : Substituted parts)
      (hothers : Nested others) : Nested (.templateHead :: (parts ++ others))

/-- The tokens of a substitution up to the first one that closes what is open
before them, with what is open behind that one. -/
def Closes (stack : List Nat) (kinds : List TokenKind) : Prop :=
  ∃ inner closing rest next, kinds = inner ++ closing :: rest ∧ Enclosed inner ∧
    closing ∈ [.closeCurly, .templateMiddle, .templateTail] ∧ step stack closing = some next ∧
    scan next rest = some []

theorem Closes.cons {stack : List Nat} {kinds : List TokenKind} (h : Closes stack kinds)
    (first : List TokenKind) (hfirst : ∀ inner, Enclosed inner → Enclosed (first ++ inner)) :
    Closes stack (first ++ kinds) := by
  obtain ⟨inner, closing, rest, next, rfl, hinner, hclosing, hstep, hscan⟩ := h
  exact ⟨first ++ inner, closing, rest, next, (List.append_assoc _ _ _).symm, hfirst inner hinner,
    hclosing, hstep, hscan⟩

/-- Behind the head of a template its parts follow, if what closes can be found
in all tokens of at most some number. -/
theorem substituted_of_scan {bound : Nat}
    (hcloses : ∀ top outer kinds, kinds.length ≤ bound → scan (top :: outer) kinds = some [] →
      Closes (top :: outer) kinds)
    {outer : List Nat} {kinds : List TokenKind} (hlength : kinds.length ≤ bound)
    (h : scan (0 :: outer) kinds = some []) :
    ∃ parts rest, kinds = parts ++ rest ∧ Substituted parts ∧ scan outer rest = some [] := by
  induction hsize : kinds.length using Nat.strongRecOn generalizing kinds with
  | ind size ih =>
      obtain ⟨inner, closing, rest, next, rfl, hinner, hclosing, hstep, hscan⟩ :=
        hcloses 0 outer kinds hlength h
      simp only [List.length_append, List.length_cons] at hlength hsize
      simp only [List.mem_cons, List.not_mem_nil, or_false] at hclosing
      rcases hclosing with rfl | rfl | rfl
      · cases hstep
      · cases hstep
        obtain ⟨parts, others, rfl, hparts, hothers⟩ :=
          ih rest.length (by omega) (by omega) hscan rfl
        refine ⟨inner ++ .templateMiddle :: parts, others, ?_, .next hinner hparts, hothers⟩
        simp
      · cases hstep
        exact ⟨inner ++ [.templateTail], rest, by simp, .last hinner, hscan⟩

theorem closes_of_scan (bound : Nat) :
    ∀ top outer kinds, kinds.length ≤ bound → scan (top :: outer) kinds = some [] →
      Closes (top :: outer) kinds := by
  induction bound with
  | zero =>
      intro top outer kinds hlength h
      obtain rfl := List.eq_nil_of_length_eq_zero (Nat.le_zero.mp hlength)
      cases h
  | succ bound ih =>
      intro top outer kinds hlength h
      cases kinds with
      | nil => cases h
      | cons kind others =>
          have hothers : others.length ≤ bound := Nat.le_of_succ_le_succ hlength
          obtain ⟨next, hstep, hscan⟩ := scan_cons_eq_some.mp h
          rcases plain_or_bracket kind with hplain | rfl | rfl | hclosing
          · rw [step_plain hplain] at hstep
            cases hstep
            exact (ih top outer others hothers hscan).cons [kind] fun _ => .plain hplain
          · cases hstep
            obtain ⟨inner, closing, rest, next, rfl, hinner, hclosing, hclose, hrest⟩ :=
              ih (top + 1) outer others hothers hscan
            obtain ⟨rfl, rfl⟩ : closing = .closeCurly ∧ next = top :: outer := by
              simp only [List.mem_cons, List.not_mem_nil, or_false] at hclosing
              rcases hclosing with rfl | rfl | rfl <;> cases hclose
              exact ⟨rfl, rfl⟩
            rw [List.length_append, List.length_cons] at hothers
            have hbehind := ih top outer rest (by omega) hrest
            have hwhole : TokenKind.openCurly :: (inner ++ .closeCurly :: rest) =
                (.openCurly :: (inner ++ [.closeCurly])) ++ rest := by simp
            rw [hwhole]
            exact hbehind.cons _ fun _ hinside => by simpa using Enclosed.braces hinner hinside
          · cases hstep
            obtain ⟨parts, rest, rfl, hparts, hrest⟩ := substituted_of_scan ih hothers hscan
            rw [List.length_append] at hothers
            have hbehind := ih top outer rest (by omega) hrest
            exact hbehind.cons (.templateHead :: parts) fun _ => .template hparts
          · exact ⟨[], kind, others, next, rfl, .nil, hclosing, hstep, hscan⟩

theorem nested_of_scan {kinds : List TokenKind} (h : scan [] kinds = some []) : Nested kinds := by
  induction hsize : kinds.length using Nat.strongRecOn generalizing kinds with
  | ind size ih =>
      cases kinds with
      | nil => exact .nil
      | cons kind others =>
          obtain ⟨next, hstep, hscan⟩ := scan_cons_eq_some.mp h
          rw [List.length_cons] at hsize
          by_cases hhead : kind = .templateHead
          · subst hhead
            cases hstep
            obtain ⟨parts, rest, rfl, hparts, hrest⟩ :=
              substituted_of_scan (closes_of_scan others.length) (Nat.le_refl _) hscan
            rw [List.length_append] at hsize
            exact .template hparts (ih rest.length (by omega) hrest rfl)
          · obtain ⟨rfl, hkind⟩ : next = [] ∧
                kind ∉ [.templateHead, .templateMiddle, .templateTail] := by
              cases kind <;> simp_all [step]
            exact .single hkind (ih others.length (by omega) hscan rfl)

end Nesting

end Brackets

namespace Piece

open Brackets

/-- The kinds of lexeme that close braces or a substitution. -/
def isClosing (kind? : Option TokenKind) : Bool :=
  [some .closeCurly, some .templateMiddle, some .templateTail].contains kind?

/-- A kind of lexeme that may stand there: a closing brace is one only where it
closes no substitution, and where it closes one it resumes a template. -/
def Fits (context : Context) (kind? : Option TokenKind) : Prop :=
  isClosing kind? = true → (kind? = some .closeCurly ↔ context.closesSubstitution = false)

theorem fits_of_not_closing {context : Context} {kind? : Option TokenKind}
    (h : isClosing kind? = false) : Fits context kind? := by
  intro hclosing
  rw [h] at hclosing
  cases hclosing

theorem fits_operatorExtent {context : Context} {c : Char} {cs : List Char} {found : Extent}
    (hcloses : c = '}' → context.closesSubstitution = false)
    (h : operatorExtent c cs = .ok found) : Fits context found.kind? := by
  unfold operatorExtent at h
  split at h
  · rename_i text kind hfind
    cases h
    have hbrace : ∀ entry ∈ TokenKind.operators, isClosing (some entry.2) = true →
        entry.2 = .closeCurly ∧ entry.1.toList = ['}'] := by decide
    intro hclosing
    obtain ⟨hkind, htext⟩ := hbrace _ (List.mem_of_find?_eq_some hfind) hclosing
    have hprefix := List.find?_some hfind
    dsimp only at hkind htext hprefix
    rw [htext, List.isPrefixOf_cons_cons, Bool.and_eq_true, beq_iff_eq] at hprefix
    exact ⟨fun _ => hcloses hprefix.1.symm, fun _ => congrArg some hkind⟩
  · cases h

theorem fits_slashExtent {context : Context} {cs : List Char} {found : Extent}
    (h : slashExtent context cs = .ok found) : Fits context found.kind? := by
  unfold slashExtent at h
  split at h
  · cases h
    exact fits_of_not_closing rfl
  · split at h <;> cases h
    exact fits_of_not_closing rfl
  · split at h
    · cases h
      exact fits_of_not_closing rfl
    · apply fits_operatorExtent _ h
      intro hslash
      exact absurd hslash (by decide)

theorem fits_extent {context : Context} {c : Char} {cs : List Char} {found : Extent}
    (h : extent context c cs = .ok found) : Fits context found.kind? := by
  cases begins_of_extent h with
  | @word _ _ kind more hkind =>
      have hwords : ∀ kind ∈ TokenKind.identifier :: TokenKind.reservedWords.map Prod.snd,
          isClosing (some kind) = false := by decide
      exact fits_of_not_closing (hwords kind hkind)
  | blanks | number | string => exact fits_of_not_closing rfl
  | template hfound =>
      obtain ⟨_, ⟨hkind, -⟩ | ⟨hkind, -⟩⟩ := of_templateExtent hfound
      · exact hkind ▸ fits_of_not_closing rfl
      · exact hkind ▸ fits_of_not_closing rfl
  | slash hfound => exact fits_slashExtent hfound
  | resumed hcloses hfound =>
      obtain ⟨_, ⟨hkind, -⟩ | ⟨hkind, -⟩⟩ := of_templateExtent hfound
      · simp [Fits, hkind, hcloses]
      · simp [Fits, hkind, hcloses]
  | operator hcloses hfound => exact fits_operatorExtent hcloses hfound

theorem scan_after {context : Context} {c : Char} {cs : List Char} {found : Extent}
    (h : extent context c cs = .ok found) (text : List Char) (kinds : List TokenKind) :
    scan context.braces (found.kind?.toList ++ kinds) =
      scan (context.after ⟨found.kind?, text⟩).braces kinds := by
  obtain ⟨previous?, braces⟩ := context
  have hfits := fits_extent h
  cases hkind : found.kind? with
  | none => rfl
  | some kind =>
      suffices hstep : step braces kind = some (Context.bracesAfter kind braces) by
        rw [Option.toList_some, List.singleton_append, scan, List.foldlM_cons, hstep]
        rfl
      rw [hkind, Fits, Context.closesSubstitution] at hfits
      cases kind with
      | closeCurly | templateMiddle | templateTail =>
          have hhead := hfits rfl
          cases braces with
          | nil => simp_all [step, Context.bracesAfter]
          | cons top outer => cases top <;> simp_all [step, Context.bracesAfter]
      | _ => cases braces <;> rfl

/-- The context behind some pieces. -/
def behind (context : Context) (pieces : List Piece) : Context :=
  pieces.foldl Context.after context

theorem braces_behind_cut {context : Context} {cs : List Char}
    (h : (cut context cs).2 = .complete) : (behind context (cut context cs).1).braces = [] := by
  fun_induction cut context cs with
  | case1 context =>
      cases hbraces : context.braces with
      | nil => exact hbraces
      | cons top outer => simp [hbraces] at h
  | case2 => cases h
  | case3 context c cs found hfound piece rest ih => exact ih h

/-- The counters behind any number of pieces are what the scan of their lexemes
leaves. -/
theorem scan_cut {context : Context} {cs : List Char} (before after : List Piece) :
    (cut context cs).1 = before ++ after →
      scan context.braces (before.filterMap Piece.kind?) = some (behind context before).braces := by
  revert before
  fun_induction cut context cs with
  | case1 | case2 =>
      intro before h
      obtain ⟨rfl, -⟩ := List.append_eq_nil_iff.mp h.symm
      rfl
  | case3 context c cs found hfound piece rest ih =>
      intro before h
      cases before with
      | nil => rfl
      | cons first before =>
          obtain ⟨rfl, hrest⟩ := List.cons.inj h
          have hkinds : (piece :: before).filterMap Piece.kind? =
              found.kind?.toList ++ before.filterMap Piece.kind? := by
            cases hkind : found.kind? <;> simp [piece, hkind]
          rw [hkinds, scan_after hfound (c :: cs.take found.more)]
          exact ih before hrest

theorem braces_pos_of_closeCurly {context : Context} {cs : List Char} {before after : List Piece}
    {piece : Piece} {top : Nat} {outer : List Nat}
    (h : (cut context cs).1 = before ++ piece :: after) (hkind : piece.kind? = some .closeCurly)
    (hbraces : (behind context before).braces = top :: outer) : 0 < top := by
  have hbefore := scan_cut before (piece :: after) h
  have hbehind := scan_cut (before ++ [piece]) after (by simpa using h)
  have hone : [piece].filterMap Piece.kind? = [.closeCurly] := by simp [hkind]
  rw [List.filterMap_append, hone, scan, List.foldlM_append] at hbehind
  rw [scan, hbraces] at hbefore
  rw [hbefore] at hbehind
  cases top with
  | zero => cases hbehind
  | succ top => exact Nat.succ_pos top

end Piece

namespace Token

open Brackets

theorem kinds_layOut (offset : Nat) (newline : Bool) (pieces : List Piece) :
    ∃ body last, layOut offset newline pieces = body ++ [last] ∧ last.kind = .endOfInput ∧
      body.map Token.kind = pieces.filterMap Piece.kind? := by
  fun_induction layOut offset newline pieces with
  | case1 offset newline => exact ⟨[], endAt offset newline, rfl, rfl, rfl⟩
  | case2 offset newline text pieces ih => exact ih
  | case3 offset newline kind text pieces stop ih =>
      obtain ⟨body, last, hbody, hlast, hkinds⟩ := ih
      refine ⟨⟨kind, String.ofList (Lexeme.value kind text), ⟨offset, stop⟩, newline⟩ :: body,
        last, ?_, hlast, ?_⟩
      · rw [hbody]
        rfl
      · rw [List.map_cons, hkinds]
        rfl

/-- The tokens of a source in which each template is complete, and the counters
with which the lexemes of the source were told apart. -/
structure Bracketed (source : String) (tokens : List Token) : Prop where
  balanced : ∃ body last, tokens = body ++ [last] ∧ last.kind = .endOfInput ∧
    scan [] (body.map Token.kind) = some [] ∧ Nested (body.map Token.kind)
  counters : ∀ before after, (Piece.cut .start source.toList).1 = before ++ after →
    scan [] (before.filterMap Piece.kind?) = some (Piece.behind .start before).braces
  decrements : ∀ before piece after top outer,
    (Piece.cut .start source.toList).1 = before ++ piece :: after →
      piece.kind? = some .closeCurly → (Piece.behind .start before).braces = top :: outer → 0 < top

/-- The tokens of a source obey the rules of the scan, so that their templates
are nested. -/
theorem ofSource_bracketed {file source : String} {tokens : List Token}
    (h : ofSource file source = .ok tokens) : Bracketed source tokens := by
  have hcounters (before after : List Piece)
      (hcut : (Piece.cut .start source.toList).1 = before ++ after) :
      scan [] (before.filterMap Piece.kind?) = some (Piece.behind .start before).braces :=
    Piece.scan_cut before after hcut
  refine ⟨?_, hcounters, fun before piece after top outer => Piece.braces_pos_of_closeCurly⟩
  rw [ofSource] at h
  split at h
  · rename_i pieces hcut
    cases h
    obtain ⟨body, last, hbody, hlast, hkinds⟩ := kinds_layOut 0 false pieces
    have hcomplete : (Piece.cut .start source.toList).2 = .complete := by rw [hcut]
    have hscan := hcounters pieces [] (by rw [hcut, List.append_nil])
    have hempty := Piece.braces_behind_cut hcomplete
    rw [hcut] at hempty
    rw [hempty, ← hkinds] at hscan
    exact ⟨body, last, hbody, hlast, hscan, nested_of_scan hscan⟩
  · cases h

/-- Braces and a template in the substitution of another one. -/
theorem bracketed_of_nested_template :
    ofSource "nested.js" "\x7d`$\x7b\x7b\x7d+`$\x7b0\x7d`\x7d`" = .ok
        [⟨.closeCurly, "\x7d", ⟨0, 1⟩, false⟩, ⟨.templateHead, "", ⟨1, 4⟩, false⟩,
          ⟨.openCurly, "\x7b", ⟨4, 5⟩, false⟩, ⟨.closeCurly, "\x7d", ⟨5, 6⟩, false⟩,
          ⟨.plus, "+", ⟨6, 7⟩, false⟩, ⟨.templateHead, "", ⟨7, 10⟩, false⟩,
          ⟨.number, "0", ⟨10, 11⟩, false⟩, ⟨.templateTail, "", ⟨11, 13⟩, false⟩,
          ⟨.templateTail, "", ⟨13, 15⟩, false⟩, .endAt 15 false] ∧
      Bracketed "\x7d`$\x7b\x7b\x7d+`$\x7b0\x7d`\x7d`"
        [⟨.closeCurly, "\x7d", ⟨0, 1⟩, false⟩, ⟨.templateHead, "", ⟨1, 4⟩, false⟩,
          ⟨.openCurly, "\x7b", ⟨4, 5⟩, false⟩, ⟨.closeCurly, "\x7d", ⟨5, 6⟩, false⟩,
          ⟨.plus, "+", ⟨6, 7⟩, false⟩, ⟨.templateHead, "", ⟨7, 10⟩, false⟩,
          ⟨.number, "0", ⟨10, 11⟩, false⟩, ⟨.templateTail, "", ⟨11, 13⟩, false⟩,
          ⟨.templateTail, "", ⟨13, 15⟩, false⟩, .endAt 15 false] := by
  have htokens : ofSource "nested.js" "\x7d`$\x7b\x7b\x7d+`$\x7b0\x7d`\x7d`" = .ok
      [⟨.closeCurly, "\x7d", ⟨0, 1⟩, false⟩, ⟨.templateHead, "", ⟨1, 4⟩, false⟩,
        ⟨.openCurly, "\x7b", ⟨4, 5⟩, false⟩, ⟨.closeCurly, "\x7d", ⟨5, 6⟩, false⟩,
        ⟨.plus, "+", ⟨6, 7⟩, false⟩, ⟨.templateHead, "", ⟨7, 10⟩, false⟩,
        ⟨.number, "0", ⟨10, 11⟩, false⟩, ⟨.templateTail, "", ⟨11, 13⟩, false⟩,
        ⟨.templateTail, "", ⟨13, 15⟩, false⟩, .endAt 15 false] := by
    have hlength : "\x7d`$\x7b\x7b\x7d+`$\x7b0\x7d`\x7d`".toList.length ≤ 15 := by decide
    rw [← ofSourceWithin_eq hlength]
    rfl
  exact ⟨htokens, ofSource_bracketed htokens⟩

end Token

end ScriptKinds
