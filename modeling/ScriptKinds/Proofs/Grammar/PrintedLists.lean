import ScriptKinds.Proofs.Grammar.PrintedOperands

namespace ScriptKinds

namespace Grammar

open Reader

variable {input : Input} {nt : Nonterminals}

section Lists

variable {α ι : Type}

/-- An item of a list with the comma behind it, which the last item need not
have. -/
def listed (entry : Reader α) (close : TokenKind) : Reader (List α) := do
  let item ← entry
  separator close
  return [item]

/-- What closes a list. -/
def closers : List TokenKind :=
  [.closeParen, .closeBracket, .closeCurly]

/-- Whether a token may be the first one of an item. -/
def Opens (token : Token) : Prop :=
  token.kind ∉ .comma :: closers

variable {entry : Reader α} {close : TokenKind} {Q : α → Prop} {token : Token}
  {taken rest : List Token}

theorem stopsAt_comma (h : token.kind ∈ .comma :: closers) : StopsAt .comma token := by
  intro form own htrailing
  simp only [closers, List.mem_cons, List.not_mem_nil, or_false] at h
  rcases h with h | h | h | h <;> rw [h] at htrailing <;> cases htrailing
  exact Nat.le_refl _

theorem accepts_listed_comma (h : entry.Accepts input taken (token :: rest) Q)
    (htoken : token.kind = .comma) (hclose : close ≠ .comma) :
    (listed entry close).Accepts input (taken ++ [token]) rest
      fun found => ∃ item, found = [item] ∧ Q item :=
  h.bind fun item hitem =>
    (accepts_separator htoken hclose).conclude fun _ _ => accepts_pure ⟨item, rfl, hitem⟩

theorem accepts_listed_close (h : entry.Accepts input taken (token :: rest) Q)
    (htoken : token.kind = close) :
    (listed entry close).Accepts input taken (token :: rest)
      fun found => ∃ item, found = [item] ∧ Q item :=
  h.conclude fun item hitem =>
    (accepts_separator_close htoken).look fun _ _ => accepts_pure ⟨item, rfl, hitem⟩

/-- What has to be known of the entries of a list: each of them is read as what
it is and starts with a token that closes nothing. -/
structure Entries (input : Input) (entry : Reader α) (size : Nat) (signs : ι → List Sign)
    (R : ι → α → Prop) (entries : List ι) : Prop where
  accepts : ∀ i ∈ entries, ∀ tokens next rest, Writes (signs i) tokens → tokens.length < size →
    StopsAt .comma next → entry.Accepts input tokens (next :: rest) (R i)
  opens : ∀ i ∈ entries, ∀ tokens, Writes (signs i) tokens →
    ∃ first others, tokens = first :: others ∧ Opens first

variable {size : Nat} {signs : ι → List Sign} {R : ι → α → Prop} {i : ι} {entries : List ι}

theorem Entries.tail (h : Entries input entry size signs R (i :: entries)) :
    Entries input entry size signs R entries :=
  ⟨fun i hi => h.accepts i (List.mem_cons_of_mem _ hi),
    fun i hi => h.opens i (List.mem_cons_of_mem _ hi)⟩

theorem accepts_collect {item : Reader (List α)} {closing : Token} (hclosing : closing.kind = close)
    (hclose : close ∈ closers)
    (hitem : ∀ (first : Token) (others rest : List Token) (P : List α → Prop), Opens first →
      (listed entry close).Accepts input (first :: others) rest P →
        item.Accepts input (first :: others) rest P)
    (h : Entries input entry size signs R entries) (bound : Nat) {tokens : List Token}
    (hbound : tokens.length < bound) (hlength : tokens.length < size)
    (htokens : Writes (commas (entries.map signs)) tokens) :
    (collectAtMost (atKind close) item bound).Accepts input tokens (closing :: rest)
      (List.Forall₂ R entries) := by
  have hcomma : close ≠ .comma := by rintro rfl; exact absurd hclose (by decide)
  have hgoes {first : Token} {others : List Token} (hfirst : Opens first) :
      (atKind close).Accepts input [] (first :: others) (· = false) :=
    (accepts_atKind close).mono fun found hfound => hfound.trans
      (beq_eq_false_iff_ne.mpr fun heq => hfirst (heq ▸ List.mem_cons_of_mem _ hclose))
  have hends : (atKind close).Accepts input [] (closing :: rest) (· = true) :=
    (accepts_atKind close).mono fun found hfound => hfound.trans (beq_iff_eq.mpr hclosing)
  obtain ⟨turns, rfl⟩ := Nat.exists_eq_succ_of_ne_zero (Nat.ne_of_gt (Nat.zero_lt_of_lt hbound))
  induction entries generalizing tokens turns with
  | nil =>
      rw [List.forall₂_nil_left_iff.mp htokens]
      exact (accepts_collect_nil hends).mono fun found hfound => hfound ▸ .nil
  | cons i others ih =>
      cases others with
      | nil =>
          obtain ⟨first, more, rfl, hfirst⟩ := h.opens i List.mem_cons_self tokens htokens
          obtain ⟨turns, rfl⟩ : ∃ before, turns = before + 1 := ⟨turns - 1, by
            rw [List.length_cons] at hbound; omega⟩
          have hone := accepts_listed_close (h.accepts i List.mem_cons_self _ closing rest htokens
            hlength (stopsAt_comma (hclosing ▸ List.mem_cons_of_mem _ hclose))) hclosing
          rw [← List.append_nil (first :: more)]
          exact accepts_collect_cons (hgoes hfirst) (hitem first more _ _ hfirst hone)
            (accepts_collect_nil hends) fun items found ⟨item, hitems, hitem⟩ hfound => by
              rw [hitems, hfound]
              exact .cons hitem .nil
      | cons j others =>
          obtain ⟨tokens, _, rfl, hi, hmore⟩ := writes_append.mp htokens
          obtain ⟨comma, more, rfl, -, hkind, hmore⟩ := writes_mark_cons hmore
          obtain ⟨first, tail, rfl, hfirst⟩ := h.opens i List.mem_cons_self tokens hi
          simp only [List.length_append, List.length_cons] at hbound hlength
          obtain ⟨turns, rfl⟩ : ∃ before, turns = before + 1 := ⟨turns - 1, by omega⟩
          have hone := accepts_listed_comma (h.accepts i List.mem_cons_self _ comma
            (more ++ closing :: rest) hi (by simp only [List.length_cons]; omega)
            (stopsAt_comma (hkind ▸ List.mem_cons_self))) hkind hcomma
          rw [show first :: tail ++ comma :: more = (first :: tail ++ [comma]) ++ more by simp]
          exact accepts_collect_cons (hgoes hfirst) (hitem first _ _ _ hfirst hone)
            (ih h.tail (by omega) hmore turns (by rw [Nat.succ_eq_add_one]; omega))
            fun items found ⟨item, hitems, hitem⟩ hfound => hitems ▸ .cons hitem hfound

theorem accepts_list {item : Reader (List α)} {closing : Token} (hclosing : closing.kind = close)
    (hclose : close ∈ closers)
    (hitem : ∀ (first : Token) (others rest : List Token) (P : List α → Prop), Opens first →
      (listed entry close).Accepts input (first :: others) rest P →
        item.Accepts input (first :: others) rest P)
    (h : Entries input entry size signs R entries) {tokens : List Token}
    (hlength : tokens.length < size) (htokens : Writes (commas (entries.map signs)) tokens)
    (rest : List Token) :
    (collectUntil (atKind close) item).Accepts input tokens (closing :: rest)
      (List.Forall₂ R entries) :=
  accepts_bound fun turns hturns =>
    accepts_collect hclosing hclose hitem h turns hturns hlength htokens

end Lists

section Items

variable {bound : Nat} (h : ReadsPrinted nt input bound)

theorem opens_of_fits {sign : Sign} {others : List Sign} {tokens : List Token}
    (hsign : ∀ token, sign.Fits token → Opens token) (htokens : Writes (sign :: others) tokens) :
    ∃ first more, tokens = first :: more ∧ Opens first := by
  obtain ⟨first, more, rfl, hfirst, -⟩ := writes_cons.mp htokens
  exact ⟨first, more, rfl, hsign first hfirst⟩

theorem opens_mark {kind : TokenKind} (hkind : kind ∉ .comma :: closers) (token : Token)
    (htoken : (Sign.mark kind).Fits token) : Opens token := by
  have htoken : token.kind = kind := htoken.2
  rwa [Opens, htoken]

theorem opens_word {kind : TokenKind} {text : String} (hkind : kind ∉ .comma :: closers)
    (token : Token) (htoken : (Sign.word kind text).Fits token) : Opens token := by
  rwa [Opens, htoken.2.1]

theorem opens_printOperand {expr : Expr} {tokens : List Token}
    (htokens : Writes expr.printOperand tokens) :
    ∃ first more, tokens = first :: more ∧ Opens first := by
  cases hbare : expr.standsBare with
  | false =>
      rw [expr.printOperand_of_not_bare hbare] at htokens
      exact opens_of_fits (opens_mark (by decide)) htokens
  | true =>
      rw [expr.printOperand_of_bare hbare] at htokens
      cases expr with
      | number value span =>
          refine opens_of_fits (fun token htoken => ?_) htokens
          rw [Opens, htoken.2.1]
          decide
      | string value template span =>
          exact opens_of_fits (opens_word (by cases template <;> decide)) htokens
      | boolean value span =>
          exact opens_of_fits (opens_mark (by cases value <;> decide)) htokens
      | null span | spread argument span => exact opens_of_fits (opens_mark (by decide)) htokens
      | symbol name span | regex pattern flags span =>
          exact opens_of_fits (opens_word (by decide)) htokens
      | _ => cases hbare

theorem accepts_readElement {first : Token} {others rest : List Token} {P : List Expr → Prop}
    (hfirst : Opens first)
    (hitem : (listed (nt.expr .comma) .closeBracket).Accepts input (first :: others) rest P) :
    (readElement nt).Accepts input (first :: others) rest P := by
  have hcomma : first.kind ≠ .comma := fun heq => hfirst (heq ▸ List.mem_cons_self)
  exact Accepts.unless_skipped rfl hcomma hitem

theorem kind_of_fits_key {name : String} {token : Token} (htoken : (Sign.key name).Fits token)
    {kind : TokenKind} (hword : kind ∉ .identifier :: TokenKind.reservedWords.map Prod.snd)
    (hliteral : kind ∉ [.string, .number]) : token.kind ≠ kind := by
  rintro rfl
  rcases List.mem_cons.mp htoken.2.1 with hkind | hkind
  · exact TokenKind.ofWord_ne name hword hkind.symm
  · exact hliteral hkind

theorem isPropertyName_of_ofWord {token : Token} (h : token.kind = .ofWord token.text) :
    token.isPropertyName = true := by
  rw [Token.isPropertyName, h, TokenKind.ofWord]
  cases TokenKind.ofReserved? token.text <;> simp

theorem isMemberName_of_fits {name : String} {token : Token}
    (htoken : (Sign.key name).Fits token) : token.isMemberName = true := by
  obtain ⟨-, hkind, htext⟩ := htoken
  simp only [List.mem_cons, List.not_mem_nil, or_false] at hkind
  rcases hkind with hkind | hkind | hkind
  · rw [Token.isMemberName, isPropertyName_of_ofWord (htext ▸ hkind), Bool.true_or, Bool.true_or]
  · simp [Token.isMemberName, hkind]
  · simp [Token.isMemberName, hkind]

theorem opens_property {property : Property} {tokens : List Token}
    (htokens : Writes property.print tokens) :
    ∃ first more, tokens = first :: more ∧ Opens first := by
  rw [Property.print] at htokens
  split at htokens
  · rename_i hspread
    rw [← Expr.printOperand_of_bare (Expr.standsBare_of_isSpread hspread)] at htokens
    exact opens_printOperand htokens
  · refine opens_of_fits (fun token htoken => ?_) htokens
    have hclosers : ∀ kind ∈ TokenKind.comma :: closers,
        kind ∉ .identifier :: TokenKind.reservedWords.map Prod.snd ∧ kind ∉ [.string, .number] := by
      decide
    exact fun hkind => kind_of_fits_key htoken (hclosers _ hkind).1 (hclosers _ hkind).2 rfl

include h

theorem entries_items {items : List Expr} (hitems : ∀ item ∈ items, item.unspread.Printable) :
    Entries input (nt.expr .comma) bound Expr.printOperand Expr.SameAs items where
  accepts item hitem tokens next rest := h.item item tokens next rest (hitems item hitem)
  opens _ _ _ := opens_printOperand

theorem accepts_readArguments {arguments : List Expr} {opening closing : Token}
    {tokens : List Token} (harguments : ∀ argument ∈ arguments, argument.unspread.Printable)
    (hopening : opening.kind = .openParen) (hclosing : closing.kind = .closeParen)
    (htokens : Writes (commas (printEach arguments)) tokens) (hlength : tokens.length < bound)
    (rest : List Token) :
    (readArguments nt).Accepts input (opening :: (tokens ++ [closing])) rest
      (List.Forall₂ Expr.SameAs arguments) := by
  rw [printEach_eq] at htokens
  have hlist := accepts_list hclosing (by decide) (fun _ _ _ _ _ h => h)
    (entries_items h harguments) hlength htokens rest
  exact Accepts.pass_expected hopening (hlist.bind fun found hfound =>
    Accepts.pass_expected hclosing (accepts_pure hfound))

theorem accepts_readArray {elements : List Expr} {span : Span} {opening closing : Token}
    {tokens rest : List Token} (helements : ∀ element ∈ elements, element.unspread.Printable)
    (hclosing : closing.kind = .closeBracket)
    (htokens : Writes (commas (printEach elements)) tokens) (hlength : tokens.length < bound) :
    (readArray nt).Accepts input (opening :: (tokens ++ [closing])) rest
      (Expr.array elements span).SameAs := by
  rw [printEach_eq] at htokens
  have hlist := accepts_list hclosing (by decide) (fun _ _ _ _ => accepts_readElement)
    (entries_items h helements) hlength htokens rest
  exact Accepts.pass (hlist.bind fun found hfound => Accepts.pass_expected hclosing
    ((accepts_spanFrom _).look fun _ _ => accepts_pure (.array hfound)))

theorem accepts_readSpread {argument : Expr} {span : Span} {dots next : Token}
    {tokens rest : List Token} (hargument : argument.Printable)
    (htokens : Writes argument.printOperand tokens) (hlength : tokens.length < bound)
    (hnext : StopsAt .comma next) :
    (readSpread nt).Accepts input (dots :: tokens) (next :: rest)
      (Expr.spread argument span).SameAs := by
  have hread := h.operand argument .comma tokens next rest hargument htokens hlength hnext
  exact Accepts.pass (hread.conclude fun read hread => accepts_pure (.spread hread))

theorem accepts_spreadEntry {argument : Expr} {span : Span} {next : Token}
    {tokens rest : List Token} (hargument : argument.Printable)
    (htokens : Writes (Expr.spread argument span).print tokens) (hlength : tokens.length < bound)
    (hnext : StopsAt .comma next) :
    (readPropertyEntry nt).Accepts input tokens (next :: rest)
      (Property.SameAs ⟨"...", .spread argument span⟩) := by
  obtain ⟨dots, others, rfl, -, hdots, hothers⟩ := writes_mark_cons htokens
  have hspread : (readSpread nt).Accepts input (dots :: others) (next :: rest)
      (Expr.spread argument span).SameAs :=
    accepts_readSpread h hargument hothers (Nat.lt_of_succ_lt hlength) hnext
  exact Accepts.if_at rfl hdots (hspread.conclude fun read hread => accepts_pure ⟨rfl, hread⟩)

theorem accepts_keyedEntry {name : String} {value : Expr} {next : Token} {tokens rest : List Token}
    (hvalue : value.Printable)
    (htokens : Writes (.key name :: .mark .colon :: value.printOperand) tokens)
    (hlength : tokens.length < bound) (hnext : StopsAt .comma next) :
    (readPropertyEntry nt).Accepts input tokens (next :: rest)
      (Property.SameAs ⟨name, value⟩) := by
  obtain ⟨key, others, rfl, hkeyFits, hothers⟩ := writes_cons.mp htokens
  obtain ⟨colon, others, rfl, -, hcolon, hothers⟩ := writes_mark_cons hothers
  simp only [List.length_cons] at hlength
  have hread := h.operand value .comma others next rest hvalue hothers (by omega) hnext
  have hpropertyValue : (readPropertyValue nt key).Accepts input (colon :: others)
      (next :: rest) value.SameAs :=
    Accepts.if_skipped hcolon hread
  have hdots : key.kind ≠ .ellipsis := kind_of_fits_key hkeyFits (by decide) (by decide)
  refine Accepts.unless_at rfl hdots (Accepts.see rfl ?_)
  rw [isMemberName_of_fits hkeyFits, if_pos rfl]
  exact Accepts.pass (hpropertyValue.conclude fun read hread =>
    accepts_pure ⟨hkeyFits.2.2, hread⟩)

theorem accepts_readPropertyEntry {property : Property} {next : Token} {tokens rest : List Token}
    (hvalue : property.value.unspread.Printable)
    (hkey : property.value.isSpread → property.key = "...")
    (htokens : Writes property.print tokens) (hlength : tokens.length < bound)
    (hnext : StopsAt .comma next) :
    (readPropertyEntry nt).Accepts input tokens (next :: rest) property.SameAs := by
  obtain ⟨name, value⟩ := property
  cases hspread : value.isSpread with
  | true =>
      cases value <;> cases hspread
      obtain rfl : name = "..." := hkey rfl
      exact accepts_spreadEntry h hvalue htokens hlength hnext
  | false =>
      rw [value.unspread_of_not_spread hspread] at hvalue
      rw [Property.print, hspread, if_neg Bool.false_ne_true] at htokens
      exact accepts_keyedEntry h hvalue htokens hlength hnext

theorem accepts_readObject {properties : List Property} {span : Span} {opening closing : Token}
    {tokens rest : List Token}
    (hvalues : ∀ property ∈ properties, property.value.unspread.Printable)
    (hkeys : ∀ property ∈ properties, property.value.isSpread → property.key = "...")
    (hclosing : closing.kind = .closeCurly)
    (htokens : Writes (commas (printProperties properties)) tokens)
    (hlength : tokens.length < bound) :
    (readObject nt).Accepts input (opening :: (tokens ++ [closing])) rest
      (Expr.object properties span).SameAs := by
  rw [printProperties_eq] at htokens
  have hentries : Entries input (readPropertyEntry nt) bound Property.print Property.SameAs
      properties :=
    ⟨fun property hproperty tokens next rest htokens hlength hnext => accepts_readPropertyEntry h
      (hvalues property hproperty) (hkeys property hproperty) htokens hlength hnext,
      fun _ _ _ htokens => opens_property htokens⟩
  have hlist := accepts_list hclosing (by decide) (fun _ _ _ _ _ h => h) hentries hlength htokens
    rest
  exact Accepts.pass (hlist.bind fun found hfound => Accepts.pass_expected hclosing
    ((accepts_spanFrom _).look fun _ _ => accepts_pure (.object hfound)))

end Items

end Grammar

end ScriptKinds
