import ScriptKinds.Proofs.Grammar.Acceptance
import ScriptKinds.Proofs.Grammar.ScriptRanges
import ScriptKinds.Proofs.Token.Lossless

namespace ScriptKinds

namespace TokenStream

theorem getElem?_toList (tokens : TokenStream) {place : Nat} (h : place ≤ tokens.body.size) :
    tokens.toList[place]? = some (tokens.get place) := by
  have hlt : place < tokens.toList.length := by
    rw [length_toList, size]
    omega
  rw [get_eq_getD_toList, List.getElem?_eq_getElem hlt, Option.getD_some]

theorem get_mem_body (tokens : TokenStream) {place : Nat} (h : place < tokens.body.size) :
    tokens.get place ∈ tokens.body := by
  rw [get, Array.getElem?_eq_getElem h, Option.getD_some]
  exact Array.getElem_mem h

end TokenStream

namespace Token.Covers

open Text

variable {offset : Nat} {text : List Char} {tokens : List Token}

theorem solid (h : Covers offset text tokens) : ∀ token ∈ tokens, token.kind ≠ .endOfInput →
    token.span.start < token.span.stop := by
  induction h with
  | last hgap => exact List.forall_mem_singleton.mpr fun hkind => absurd rfl hkind
  | @token offset gap slice rest token others hgap hslice hstart hstop hkind hmeans _ ih =>
      have hpos := List.length_pos_iff.mpr hslice
      have hlength := length_le_byteLength slice
      exact List.forall_mem_cons.mpr ⟨fun _ => by omega, ih⟩

theorem ofList_eq (h : Covers offset text tokens) : ∃ body newline,
    TokenStream.ofList tokens = ⟨body, endAt (offset + byteLength text) newline⟩ ∧
      (TokenStream.ofList tokens).toList = tokens ∧
      ∀ token ∈ body, token ∈ tokens ∧ token.kind ≠ .endOfInput := by
  obtain ⟨body, newline, rfl, hbody⟩ := h.ends
  refine ⟨body.toArray, newline, TokenStream.ofList_append rfl, TokenStream.toList_ofList rfl, ?_⟩
  intro token htoken
  have hmem : token ∈ body := List.mem_toArray.mp htoken
  exact ⟨List.mem_append_left _ hmem, hbody token hmem⟩

theorem get_ofList (h : Covers offset text tokens) {place : Nat} {token : Token}
    (htoken : tokens[place]? = some token) (hends : token.kind ≠ .endOfInput) :
    (TokenStream.ofList tokens).get place = token ∧
      place < (TokenStream.ofList tokens).body.size := by
  obtain ⟨body, newline, hstream, hlist, -⟩ := h.ofList_eq
  have hplace : place ≤ (TokenStream.ofList tokens).body.size := by
    have hlt := (List.getElem?_eq_some_iff.mp htoken).1
    rw [← hlist, TokenStream.length_toList] at hlt
    exact Nat.le_of_lt_succ hlt
  have hget : (TokenStream.ofList tokens).get place = token := by
    have hsame := (TokenStream.ofList tokens).getElem?_toList hplace
    rw [hlist, htoken] at hsame
    exact (Option.some.inj hsame).symm
  refine ⟨hget, TokenStream.lt_size ?_ (by rwa [hget])⟩
  rw [hstream]
  rfl

theorem finish_ofList (h : Covers offset text tokens) :
    (TokenStream.ofList tokens).finish = offset + byteLength text := by
  obtain ⟨body, newline, hstream, -, -⟩ := h.ofList_eq
  rw [hstream]
  rfl

theorem laidOut (h : Covers offset text tokens) : (TokenStream.ofList tokens).LaidOut := by
  obtain ⟨body, newline, hstream, hlist, hbody⟩ := h.ofList_eq
  constructor
  · intro place hplace
    have hmem := (TokenStream.ofList tokens).get_mem_body hplace
    rw [hstream] at hmem
    obtain ⟨htoken, hkind⟩ := hbody _ hmem
    rw [hstream]
    exact ⟨hkind, h.solid _ htoken hkind⟩
  · intro place later hlt hlater
    have hfirst := (TokenStream.ofList tokens).getElem?_toList (Nat.le_trans (Nat.le_of_lt hlt) hlater)
    have hsecond := (TokenStream.ofList tokens).getElem?_toList hlater
    rw [hlist] at hfirst hsecond
    obtain ⟨hfirstLt, hfirst⟩ := List.getElem?_eq_some_iff.mp hfirst
    obtain ⟨hsecondLt, hsecond⟩ := List.getElem?_eq_some_iff.mp hsecond
    rw [← hfirst, ← hsecond]
    exact List.pairwise_iff_getElem.mp h.pairwise place later hfirstLt hsecondLt hlt

end Token.Covers

namespace Reader

variable {α : Type} {input : Input}

theorem finished_of_collectUntil {finished : Reader Bool} {view : Token → Bool}
    [hsees : Sees finished view] {item : Reader (List α)} {before after : Progress}
    {results : List α} (hrun : collectUntil finished item input before = .ok results after) :
    view (input.tokens.get after.place) = true := by
  have hbounded (limit : Nat) : ∀ before results,
      collectAtMost finished item limit input before = .ok results after →
        view (input.tokens.get after.place) = true := by
    induction limit with
    | zero => exact fun _ _ hrun => nomatch hrun
    | succ limit ih =>
        intro before results hrun
        obtain ⟨ends, middle, hends, hrest⟩ := bind_ok hrun
        obtain ⟨rfl, rfl⟩ := hsees.run hends
        split at hrest
        · cases hrest
          assumption
        · obtain ⟨first, next, hfirst, hothers⟩ := bind_ok hrest
          obtain ⟨others, last, hothers, hlast⟩ := bind_ok hothers
          cases hlast
          exact ih next others hothers
  obtain ⟨limit, middle, hlimit, hrest⟩ := bind_ok hrun
  exact hbounded limit middle results hrest

end Reader

namespace Grammar

open Reader

variable {input : Input} {now : Token → Prop} {floor : Nat} {nt : Nonterminals} {root : Block}
  {before after : Progress}

theorem ranges_readScript (h : nt.Ranging input) :
    Ranges input now floor (readScript nt) fun hi root => EachFits .stmt floor hi root.body := by
  refine .read (.collectUntil fun later hlater => ranges_body h floor hlater) ?_
  exact fun body middle hmiddle hbody => .skip fun stop => .pure fun hi hhi => hbody hi hhi

/-- Statements are collected up to the end of the text. -/
instance sees_end : Sees (return !(← hasTokens)) fun token => !(token.kind != .endOfInput) :=
  ⟨fun _ _ => rfl⟩

theorem span_of_readScript (hinput : input.LaidOut)
    (hrun : readScript nt input before = .ok root after) : root.span = ⟨0, input.tokens.finish⟩ := by
  obtain ⟨body, middle, hbody, hrest⟩ := bind_ok hrun
  have hkind : (!((input.tokens.get middle.place).kind != .endOfInput)) = true :=
    finished_of_collectUntil hbody
  have hends : input.tokens.body.size ≤ middle.place := by
    by_contra hlt
    simp [(hinput.laidOut.solid _ (Nat.lt_of_not_le hlt)).1] at hkind
  have hlast : input.tokens.get middle.place = input.tokens.last := by
    rw [TokenStream.get, Array.getElem?_eq_none hends, Option.getD_none]
  have hroot : root.span = ⟨0, (input.tokens.get middle.place).span.start⟩ := by
    cases hrest
    rfl
  rw [hroot, hlast, TokenStream.finish]

end Grammar

namespace Script

variable {file source : String} {tokens : List Token} {script : Script}

/-- The tokens of a source are laid out in it. -/
theorem laidOut_ofSource (h : Token.ofSource file source = .ok tokens) :
    (⟨.ofList tokens, file, .script⟩ : Input).LaidOut := by
  have hcovers := Token.covers_ofSource h
  have hunreserved (token : Token) (htoken : token ∈ tokens) (hkind : token.kind = .endOfInput) :
      TokenKind.ofReserved? token.text = none := by
    obtain ⟨body, newline, rfl, hbody⟩ := hcovers.ends
    rcases List.mem_append.mp htoken with hinside | hlast
    · exact absurd hkind (hbody token hinside)
    · rw [List.mem_singleton.mp hlast]
      rfl
  exact ⟨terminated_ofList file hunreserved, hcovers.laidOut⟩

theorem finish_ofSource (h : Token.ofSource file source = .ok tokens) :
    (TokenStream.ofList tokens).finish = source.utf8ByteSize := by
  rw [(Token.covers_ofSource h).finish_ofList, Nat.zero_add, Text.byteLength_toList]

theorem ofSource_ok (h : ofSource file source = .ok script) :
    ∃ tokens, Token.ofSource file source = .ok tokens ∧ ofTokens file tokens = .ok script := by
  unfold ofSource at h
  split at h
  · exact ⟨_, ‹_›, h⟩
  · cases h

/-- Reading the tokens of a source ends with a script whose parts nest, or with a
fault in the source. -/
theorem landing_ofTokens (h : Token.ofSource file source = .ok tokens) :
    Reader.Landing (.ofList tokens) 0
      (fun hi root => Grammar.EachFits .stmt 0 hi (Block.body root))
      (Grammar.knot Grammar.readScript ⟨.ofList tokens, file, .script⟩ .start) := by
  have hread : Reader.Ranges ⟨.ofList tokens, file, .script⟩ Reader.anything 0
      (Grammar.readScript (Grammar.nonterminals (Grammar.depthOf (.ofList tokens))))
      fun hi root => Grammar.EachFits .stmt 0 hi root.body :=
    Grammar.ranges_readScript (Grammar.nonterminals_ranging _)
  exact hread (laidOut_ofSource h) .start (Nat.le_refl _) (Nat.zero_le _) trivial

theorem fits_body (h : ofSource file source = .ok script) :
    Grammar.EachFits .stmt 0 source.utf8ByteSize script.root.body := by
  obtain ⟨tokens, htokens, hscript⟩ := ofSource_ok h
  obtain ⟨after, hrun, -⟩ := ofTokens_ok hscript
  have hlanding := landing_ofTokens htokens
  rw [hrun] at hlanding
  obtain ⟨-, hlast, hbody⟩ := hlanding
  have hfinish := (laidOut_ofSource htokens).laidOut.stopBefore_le_finish hlast
  rw [finish_ofSource htokens] at hfinish
  exact hbody _ hfinish

/-- A script that covers its source, and in which all expressions, statements and
blocks but the script itself cover some part of it, one inside the other.  No offset
is cut where it is kept in 32 bits. -/
structure Nested (source : String) (script : Script) : Prop where
  root : script.root.span = ⟨0, source.utf8ByteSize⟩
  solid : ∀ node span, Node.Below node (.block script.root) → node.span? = some span →
    span.start < span.stop ∧ span.stop ≤ source.utf8ByteSize
  nested : ∀ outer inner outerSpan innerSpan, Node.Inside outer (.block script.root) →
    Node.Below inner outer → outer.span? = some outerSpan → inner.span? = some innerSpan →
      outerSpan.start ≤ innerSpan.start ∧ innerSpan.stop ≤ outerSpan.stop
  kept : ∀ node span, Node.Inside node (.block script.root) → node.span? = some span →
    span.kept = span

theorem ofSource_nested (hsize : source.utf8ByteSize < UInt32.size)
    (h : ofSource file source = .ok script) : Nested source script := by
  have hroot : script.root.span = ⟨0, source.utf8ByteSize⟩ := by
    obtain ⟨tokens, htokens, hscript⟩ := ofSource_ok h
    obtain ⟨after, hrun, -⟩ := ofTokens_ok hscript
    rw [← finish_ofSource htokens]
    exact Grammar.span_of_readScript (laidOut_ofSource htokens) hrun
  have hfits (node : Node) (hbelow : Node.Below node (.block script.root)) :
      node.Fits 0 source.utf8ByteSize := by
    obtain ⟨child, hchild, hinside⟩ := hbelow
    obtain ⟨stmt, hstmt, rfl⟩ := List.mem_map.mp hchild
    exact (fits_body h stmt hstmt).inside hinside
  refine ⟨hroot, fun node span hbelow hspan => ?_, ?_, fun node span hinside hspan => ?_⟩
  · have hnode := (hfits node hbelow).span_fits hspan
    exact ⟨hnode.solid, hnode.upper⟩
  · intro outer inner outerSpan innerSpan houter hinner houterSpan hinnerSpan
    cases houter with
    | self =>
        have hnode := (hfits inner hinner).span_fits hinnerSpan
        cases houterSpan.symm.trans (congrArg some hroot)
        exact ⟨hnode.lower, hnode.upper⟩
    | deeper hchild hinside =>
        have hnode := (hfits outer ⟨_, hchild, hinside⟩).nested hinner hinnerSpan houterSpan
        exact ⟨hnode.lower, hnode.upper⟩
  · cases hinside with
    | self =>
        cases hspan.symm.trans (congrArg some hroot)
        exact Span.kept_eq_self (Nat.zero_le _) hsize
    | deeper hchild hinside =>
        have hnode := (hfits node ⟨_, hchild, hinside⟩).span_fits hspan
        exact Span.kept_eq_self hnode.solid.le (Nat.lt_of_le_of_lt hnode.upper hsize)

/-- An arrow function with a parenthesised body, in parentheses itself. -/
theorem nested_of_arrow :
    "f((x) => (y)); // é".utf8ByteSize < UInt32.size ∧
      ∃ script, ofSource "arrow.js" "f((x) => (y)); // é" = .ok script ∧
        Nested "f((x) => (y)); // é" script := by
  have hsize : "f((x) => (y)); // é".utf8ByteSize < UInt32.size := by decide
  have htokens : Token.ofSource "arrow.js" "f((x) => (y)); // é" = .ok
      [⟨.identifier, "f", ⟨0, 1⟩, false⟩, ⟨.openParen, "(", ⟨1, 2⟩, false⟩,
        ⟨.openParen, "(", ⟨2, 3⟩, false⟩, ⟨.identifier, "x", ⟨3, 4⟩, false⟩,
        ⟨.closeParen, ")", ⟨4, 5⟩, false⟩, ⟨.arrow, "=>", ⟨6, 8⟩, false⟩,
        ⟨.openParen, "(", ⟨9, 10⟩, false⟩, ⟨.identifier, "y", ⟨10, 11⟩, false⟩,
        ⟨.closeParen, ")", ⟨11, 12⟩, false⟩, ⟨.closeParen, ")", ⟨12, 13⟩, false⟩,
        ⟨.semicolon, ";", ⟨13, 14⟩, false⟩, .endAt 20 false] := by
    have hlength : "f((x) => (y)); // é".toList.length ≤ 19 := by decide
    rw [← Token.ofSourceWithin_eq hlength]
    rfl
  have hread : (ofSource "arrow.js" "f((x) => (y)); // é").toOption.isSome = true := by
    rw [ofSource, htokens]
    decide +kernel
  cases hscript : ofSource "arrow.js" "f((x) => (y)); // é" with
  | error failure =>
      rw [hscript] at hread
      cases hread
  | ok script => exact ⟨hsize, script, rfl, ofSource_nested hsize hscript⟩

end Script

end ScriptKinds
