import ScriptKinds.Proofs.Lexeme.Seam
import ScriptKinds.Proofs.Token.Lossless

/-!
Reformatted sources.

A source is reformatted by putting blanks of any sort in the place of its gaps,
and blanks between lexemes that touch.  That leaves the tokens as they are, as
long as the line breaks before them stay: what the gaps hold beyond that cannot
be seen in the tokens, not even in what a slash stands for.
-/

namespace ScriptKinds

namespace Text

/-- The characters of a text that begin within its first `n` bytes. -/
def takeBytes : Nat → List Char → List Char
  | 0, _ => []
  | _ + 1, [] => []
  | n + 1, c :: cs => c :: takeBytes (n + 1 - c.utf8Size) cs

/-- A text that is not empty has a byte to count, and its first character takes as
many bytes as it has beyond the others. -/
theorem exists_byteLength_cons (c : Char) (cs : List Char) :
    ∃ n, byteLength (c :: cs) = n + 1 ∧ n + 1 - c.utf8Size = byteLength cs := by
  obtain ⟨k, hk⟩ := Nat.exists_eq_add_one_of_ne_zero (Nat.ne_of_gt c.utf8Size_pos)
  refine ⟨k + byteLength cs, ?_, by omega⟩
  rw [byteLength_cons, hk]
  omega

theorem takeBytes_append (xs ys : List Char) : takeBytes (byteLength xs) (xs ++ ys) = xs := by
  induction xs with
  | nil => rw [byteLength_nil, takeBytes]
  | cons x xs ih =>
      obtain ⟨n, hsize, hrest⟩ := exists_byteLength_cons x xs
      rw [hsize, List.cons_append, takeBytes, hrest, ih]

theorem dropBytes_append (xs ys : List Char) : dropBytes (byteLength xs) (xs ++ ys) = ys := by
  induction xs with
  | nil => rw [byteLength_nil, List.nil_append, dropBytes]
  | cons x xs ih =>
      obtain ⟨n, hsize, hrest⟩ := exists_byteLength_cons x xs
      rw [hsize, List.cons_append, dropBytes, hrest, ih]

/-- The part of a text that a span covers. -/
def slice (text : List Char) (span : Span) : List Char :=
  takeBytes (span.stop - span.start) (dropBytes span.start text)

theorem slice_eq {text before part after : List Char} {span : Span}
    (h : Around text span before part after) : slice text span = part := by
  have hlength : span.stop - span.start = byteLength part := by
    rw [← h.start, ← h.stop, byteLength_append]
    omega
  rw [slice, hlength, ← h.start, h.eq, List.append_assoc, dropBytes_append, takeBytes_append]

/-- Blanks that can stand for a gap: there is at least one, and they break the
line if the gap did. -/
structure Separates (newline : Bool) (blanks : List Char) : Prop where
  ne_nil : blanks ≠ []
  blank : ∀ c ∈ blanks, isBlank c = true
  newline_iff : '\n' ∈ blanks ↔ newline = true

theorem Separates.startsBlank {newline : Bool} {blanks : List Char}
    (h : Separates newline blanks) (rest : List Char) : StartsBlank (blanks ++ rest) := by
  intro c hc
  apply h.blank
  obtain ⟨d, others, rfl⟩ := List.exists_cons_of_ne_nil h.ne_nil
  rw [List.cons_append, List.head?_cons, Option.mem_some_iff] at hc
  exact hc ▸ List.mem_cons_self

end Text

/-- What a token is, apart from where it stands. -/
def Token.content (token : Token) : TokenKind × String × Bool :=
  (token.kind, token.text, token.newlineBefore)

namespace Piece

open Text Lexeme

/-- Spaced newline pieces text: the text consists of the lexemes among the pieces,
each with blanks in front of it that stand for the gaps there, and such blanks at
its end.  The flag says whether a gap before the pieces broke the line. -/
inductive Spaced : Bool → List Piece → List Char → Prop
  | done {newline : Bool} {blanks : List Char} (h : Separates newline blanks) :
      Spaced newline [] blanks
  | gap {newline : Bool} {text out : List Char} {pieces : List Piece}
      (h : Spaced (newline || text.contains '\n') pieces out) :
      Spaced newline (⟨none, text⟩ :: pieces) out
  | lexeme {newline : Bool} {kind : TokenKind} {text blanks out : List Char} {pieces : List Piece}
      (hblanks : Separates newline blanks) (h : Spaced false pieces out) :
      Spaced newline (⟨some kind, text⟩ :: pieces) (blanks ++ (text ++ out))

theorem Spaced.startsBlank {newline : Bool} {pieces : List Piece} {out : List Char}
    (h : Spaced newline pieces out) : StartsBlank out := by
  induction h with
  | done h => simpa using h.startsBlank []
  | gap _ ih => exact ih
  | lexeme hblanks _ _ => exact hblanks.startsBlank _

/-- Cuts context text pieces: the text can be cut into the pieces up to its end. -/
inductive Cuts : Context → List Char → List Piece → Prop
  | done {context : Context} (h : context.braces.isEmpty = true) : Cuts context [] []
  | gap {context : Context} {c : Char} {cs : List Char} {more : Nat} {pieces : List Piece}
      (h : extent context c cs = .ok ⟨none, more⟩) (hrest : Cuts context (cs.drop more) pieces) :
      Cuts context (c :: cs) (⟨none, c :: cs.take more⟩ :: pieces)
  | lexeme {context : Context} {c : Char} {cs : List Char} {kind : TokenKind} {more : Nat}
      {pieces : List Piece} (h : extent context c cs = .ok ⟨some kind, more⟩)
      (hrest : Cuts ⟨some kind, Context.bracesAfter kind context.braces⟩ (cs.drop more) pieces) :
      Cuts context (c :: cs) (⟨some kind, c :: cs.take more⟩ :: pieces)

theorem Cuts.cut_eq {context : Context} {cs : List Char} {pieces : List Piece}
    (h : Cuts context cs pieces) : cut context cs = (pieces, .complete) := by
  induction h with
  | done h => simp [cut, h]
  | gap h _ ih => simp [cut, h, Context.after, ih]
  | lexeme h _ ih => simp [cut, h, Context.after, ih]

theorem cuts_of_complete {context : Context} {cs : List Char}
    (h : (cut context cs).2 = .complete) : Cuts context cs (cut context cs).1 := by
  fun_induction cut context cs with
  | case1 context =>
      split at h
      · exact .done ‹_›
      · cases h
  | case2 => cases h
  | case3 context c cs found hfound piece rest ih =>
      obtain ⟨kind?, more⟩ := found
      cases kind? with
      | none => exact .gap hfound (ih h)
      | some kind => exact .lexeme hfound (ih h)

section Spacing

variable {newline : Bool} {context : Context} {cs out : List Char} {pieces : List Piece}

/-- Where the rest of a line holds no closing slash, it holds none after it has
been spaced. -/
theorem Cuts.untilSlash_eq_none (hcuts : Cuts context cs pieces) (h : Spaced newline pieces out)
    {inClass : Bool} (hnone : newline = true ∨ untilSlash inClass cs = none) :
    untilSlash inClass out = none := by
  induction hcuts generalizing newline out inClass with
  | done =>
      cases h with
      | done hblanks =>
          rw [← List.append_nil out]
          exact (untilSlash_blanks hblanks.blank inClass []).2 (.inr rfl)
  | @gap context c cs more pieces hfound _ ih =>
      cases h with
      | gap h =>
          apply ih h
          by_cases hline : '\n' ∈ c :: cs.take more
          · left
            rw [Bool.or_eq_true, List.contains_iff_mem]
            exact .inr hline
          · rcases hnone with hnewline | hnone
            · left
              simp [hnewline]
            · right
              apply KeepsOpen.gap (sound_extent hfound) hline inClass
              rwa [List.cons_append, List.take_append_drop]
  | @lexeme context c cs kind more pieces hfound _ ih =>
      cases h with
      | @lexeme _ _ _ blanks out _ hblanks h =>
          apply (untilSlash_blanks hblanks.blank _ _).2
          rcases hnone with hnewline | hnone
          · exact .inl (hblanks.newline_iff.2 hnewline)
          · right
            have hopen : KeepsOpen (cs.drop more) out := fun inClass hrest => ih h (.inr hrest)
            apply hopen.prepend (paired_extent hfound) inClass
            rwa [List.cons_append, List.take_append_drop]

theorem Cuts.blanks {blanks : List Char} (hblanks : Separates newline blanks)
    (hrest : ∀ c ∈ cs.head?, isBlank c = false) (h : Cuts context cs pieces) :
    Cuts context (blanks ++ cs) (⟨none, blanks⟩ :: pieces) := by
  obtain ⟨c, more, rfl⟩ := List.exists_cons_of_ne_nil hblanks.ne_nil
  have hfound : extent context c (more ++ cs) = .ok ⟨none, more.length⟩ :=
    extent_blanks hblanks.blank hrest
  have hbehind : Cuts context ((more ++ cs).drop more.length) pieces := by rwa [List.drop_left]
  have hgap := Cuts.gap hfound hbehind
  rwa [List.take_left] at hgap

/-- Spacing a text leaves its lexemes as they are, and the line breaks between
them. -/
theorem Cuts.spaced (hcuts : Cuts context cs pieces) (h : Spaced newline pieces out) :
    ∃ others, Cuts context out others ∧ ∀ offset offset',
      (Token.layOut offset false others).map Token.content =
        (Token.layOut offset' newline pieces).map Token.content := by
  induction hcuts generalizing newline out with
  | @done context hclosed =>
      cases h with
      | done hblanks =>
          refine ⟨[⟨none, out⟩], ?_, fun offset offset' => ?_⟩
          · have hblank : Cuts context (out ++ []) [⟨none, out⟩] :=
              Cuts.blanks hblanks (by simp) (.done hclosed)
            simpa using hblank
          · simp [Token.layOut, Token.content, Token.endAt, hblanks.newline_iff]
  | gap hfound _ ih =>
      cases h with
      | gap h =>
          obtain ⟨others, hothers, hcontent⟩ := ih h
          exact ⟨others, hothers, fun offset offset' => hcontent offset _⟩
  | @lexeme context c cs kind more pieces hfound hrest ih =>
      cases h with
      | @lexeme _ _ _ blanks out _ hblanks h =>
          obtain ⟨others, hothers, hcontent⟩ := ih h
          have hopen : KeepsOpen (cs.drop more) out := fun inClass hnone =>
            hrest.untilSlash_eq_none h (.inr hnone)
          have hsame := extent_seam hfound h.startsBlank hopen
          have hlength : (cs.take more).length = more := List.length_take_of_le (extent_le hfound)
          have hbehind : Cuts ⟨some kind, Context.bracesAfter kind context.braces⟩
              ((cs.take more ++ out).drop more) others := by
            rwa [List.drop_left' hlength]
          have hlexeme := Cuts.lexeme hsame hbehind
          rw [List.take_left' hlength] at hlexeme
          refine ⟨_, Cuts.blanks hblanks ?_ hlexeme, fun offset offset' => ?_⟩
          · rintro d hd
            obtain rfl : c = d := by simpa using hd
            exact not_isBlank_of_extent hfound
          · simp only [Token.layOut, List.map_cons]
            rw [hcontent _ (offset' + byteLength (c :: cs.take more))]
            simp [Token.content, hblanks.newline_iff]

end Spacing

end Piece

namespace Token

open Text Piece

theorem cuts_of_ofSource {file source : String} {tokens : List Token}
    (h : ofSource file source = .ok tokens) :
    ∃ pieces, Cuts .start source.toList pieces ∧ join pieces = source.toList ∧
      layOut 0 false pieces = tokens := by
  rw [ofSource] at h
  split at h
  · rename_i pieces hcut
    cases h
    have hcomplete : (cut .start source.toList).2 = .complete := by rw [hcut]
    have hcuts := cuts_of_complete hcomplete
    have hjoin := join_cut hcomplete
    rw [hcut] at hcuts hjoin
    exact ⟨pieces, hcuts, hjoin, rfl⟩
  · cases h

theorem ofSource_of_cuts {source : String} {pieces : List Piece}
    (h : Cuts .start source.toList pieces) (file : String) :
    ofSource file source = .ok (layOut 0 false pieces) := by
  rw [ofSource, h.cut_eq]

/-- The blank in front of a token of a reformatted source. -/
def separator (token : Token) : Char :=
  if token.newlineBefore then '\n' else ' '

theorem separates_separator (token : Token) : Separates token.newlineBefore [token.separator] := by
  refine ⟨List.cons_ne_nil _ _, ?_, ?_⟩
  · intro c hc
    obtain rfl := List.mem_singleton.mp hc
    rw [separator]
    split <;> decide
  · rw [separator]
    cases token.newlineBefore <;> decide

/-- The parts of a source that its tokens cover, with one blank in front of each:
a line feed where a line break was, and else a space. -/
def reformat (source : String) (tokens : List Token) : String :=
  String.ofList (tokens.flatMap fun token => token.separator :: slice source.toList token.span)

/-- Respaced source tokens text: the text consists of the parts of the source that
the tokens cover, with any blanks in front of each, and line breaks where they
were. -/
inductive Respaced (source : List Char) : List Token → List Char → Prop
  | nil : Respaced source [] []
  | cons {token : Token} {others : List Token} {blanks text : List Char}
      (hblanks : Separates token.newlineBefore blanks) (h : Respaced source others text) :
      Respaced source (token :: others) (blanks ++ (slice source token.span ++ text))

theorem respaced_reformat (source : String) (tokens : List Token) :
    Respaced source.toList tokens (reformat source tokens).toList := by
  rw [reformat, String.toList_ofList]
  induction tokens with
  | nil => exact .nil
  | cons token tokens ih => exact .cons (separates_separator token) ih

theorem spaced_of_respaced {pieces : List Piece} {before text : List Char} {newline : Bool}
    (h : Respaced (before ++ join pieces) (layOut (byteLength before) newline pieces) text) :
    Spaced newline pieces text := by
  induction pieces generalizing before newline text with
  | nil =>
      cases h with
      | cons hblanks h =>
          cases h
          have haround : Around (before ++ join []) ⟨byteLength before, byteLength before⟩ before []
              [] :=
            ⟨by simp [join], rfl, by simp⟩
          have hslice := slice_eq haround
          rw [endAt, hslice, List.append_nil, List.append_nil]
          exact .done hblanks
  | cons piece pieces ih =>
      obtain ⟨kind?, covered⟩ := piece
      have hreached : byteLength before + byteLength covered = byteLength (before ++ covered) :=
        (byteLength_append before covered).symm
      have hsource : before ++ join (⟨kind?, covered⟩ :: pieces) =
          before ++ covered ++ join pieces := by
        simp [join]
      rw [hsource] at h
      cases kind? with
      | none =>
          rw [layOut, hreached] at h
          exact .gap (ih h)
      | some kind =>
          rw [layOut, hreached] at h
          cases h with
          | cons hblanks h =>
              rw [slice_eq ⟨rfl, rfl, rfl⟩]
              exact .lexeme hblanks (ih h)

theorem ofSource_respaced {file source : String} {tokens : List Token} {text : List Char}
    (h : ofSource file source = .ok tokens) (hrespaced : Respaced source.toList tokens text) :
    ∃ others, ofSource file (String.ofList text) = .ok others ∧
      others.map content = tokens.map content := by
  obtain ⟨pieces, hcuts, hjoin, rfl⟩ := cuts_of_ofSource h
  rw [← hjoin] at hrespaced
  have hspaced : Spaced false pieces text :=
    spaced_of_respaced (show Respaced ([] ++ join pieces) (layOut (byteLength []) false pieces) text
      from hrespaced)
  obtain ⟨others, hothers, hcontent⟩ := hcuts.spaced hspaced
  have hothers : Cuts .start (String.ofList text).toList others := by
    rwa [String.toList_ofList]
  exact ⟨_, ofSource_of_cuts hothers file, hcontent 0 0⟩

/-- The part of a source that a token covers, and whether a line break precedes it. -/
def covered (source : String) (token : Token) : List Char × Bool :=
  (slice source.toList token.span, token.newlineBefore)

theorem reformat_eq_of_covered {source other : String} {tokens others : List Token}
    (h : others.map (covered other) = tokens.map (covered source)) :
    reformat other others = reformat source tokens := by
  have hparts (text : String) (list : List Token) : reformat text list =
      String.ofList ((list.map (covered text)).flatMap fun part =>
        (if part.2 then '\n' else ' ') :: part.1) := by
    rw [reformat, List.flatMap_map]
    rfl
  rw [hparts, hparts, h]

/-- A source can be written anew with other blanks in the place of its gaps: the
tokens stay the same, apart from where they stand.  So two sources whose tokens
cover the same texts, with line breaks at the same places, have the same tokens,
whatever stands between them. -/
theorem ofSource_reformat {file source : String} {tokens : List Token}
    (h : ofSource file source = .ok tokens) :
    (∃ others, ofSource file (reformat source tokens) = .ok others ∧
      others.map content = tokens.map content) ∧
    (∀ text, Respaced source.toList tokens text →
      ∃ others, ofSource file (String.ofList text) = .ok others ∧
        others.map content = tokens.map content) ∧
    ∀ other others, ofSource file other = .ok others →
      others.map (covered other) = tokens.map (covered source) →
        others.map content = tokens.map content := by
  have hreformat (text : String) (list : List Token) (hlist : ofSource file text = .ok list) :
      ∃ others, ofSource file (reformat text list) = .ok others ∧
        others.map content = list.map content := by
    obtain ⟨others, hothers, hcontent⟩ := ofSource_respaced hlist (respaced_reformat text list)
    rw [String.ofList_toList] at hothers
    exact ⟨others, hothers, hcontent⟩
  refine ⟨hreformat source tokens h, fun text => ofSource_respaced h, ?_⟩
  intro other others hother hcovered
  obtain ⟨first, hfirst, hfirstContent⟩ := hreformat source tokens h
  obtain ⟨second, hsecond, hsecondContent⟩ := hreformat other others hother
  rw [reformat_eq_of_covered hcovered, hfirst] at hsecond
  obtain rfl := Except.ok.inj hsecond
  rw [← hfirstContent, ← hsecondContent]

/-- A division and a regular expression with comments in front of them. -/
theorem reformat_of_slashes :
    ∃ tokens, ofSource "slashes.js" "a/*-*// 2;// half\n/b/g" = .ok tokens ∧
      reformat "a/*-*// 2;// half\n/b/g" tokens = " a / 2 ;\n/b/g " ∧
      ∃ others, ofSource "slashes.js" " a / 2 ;\n/b/g " = .ok others ∧
        others.map content = tokens.map content := by
  have htokens : ofSource "slashes.js" "a/*-*// 2;// half\n/b/g" = .ok
      [⟨.identifier, "a", ⟨0, 1⟩, false⟩, ⟨.slash, "/", ⟨6, 7⟩, false⟩,
        ⟨.number, "2", ⟨8, 9⟩, false⟩, ⟨.semicolon, ";", ⟨9, 10⟩, false⟩,
        ⟨.regex, "/b/g", ⟨18, 22⟩, true⟩, .endAt 22 false] := by
    have hlength : "a/*-*// 2;// half\n/b/g".toList.length ≤ 22 := by decide
    rw [← ofSourceWithin_eq hlength]
    rfl
  have hreformat := (ofSource_reformat htokens).1
  exact ⟨_, htokens, rfl, hreformat⟩

end Token

end ScriptKinds
