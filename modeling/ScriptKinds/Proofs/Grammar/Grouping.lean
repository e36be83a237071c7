import Mathlib.Data.List.TakeWhile
import ScriptKinds.Proofs.Grammar.Acceptance
import ScriptKinds.Proofs.Tree.Relabeling

/-!
Grouping of binary operators.

Names with binary operators between them are read as the one tree over them in
which the operators inside the left operand of an operator bind at least as
closely as it does and those inside its right operand bind more closely, with
the roles exchanged for `**`.
-/

namespace ScriptKinds

namespace Power

variable {p q : Power}

theorem le_iff : p ≤ q ↔ p.rank ≤ q.rank := Iff.rfl

theorem lt_iff : p < q ↔ p.rank < q.rank := Iff.rfl

end Power

namespace Token

/-- How closely a token binds when it stands after an operand. -/
def power (token : Token) : Power :=
  ((Grammar.script.trailing? token.kind).map Prod.snd).getD .none

/-- Whether a token is an operator between two operands. -/
def IsBinary (token : Token) : Prop :=
  ∃ form own, Grammar.script.trailing? token.kind = some (form, own) ∧
    (form = .binary ∨ form = .exponent)

/-- Whether an operator may be that of the left operand of another one. -/
def GroupsLeft (operator inner : Token) : Prop :=
  operator.power ≤ inner.power ∧ (operator.kind = .starStar → operator.power < inner.power)

/-- Whether an operator may be that of the right operand of another one. -/
def GroupsRight (operator inner : Token) : Prop :=
  operator.power ≤ inner.power ∧ (operator.kind ≠ .starStar → operator.power < inner.power)

/-- The power that all tokens in the right operand of an operator exceed. -/
def floor (operator : Token) : Power :=
  if operator.kind = .starStar then .multiplicative else operator.power

end Token

/-- An operator with the name that follows it. -/
structure Link where
  operator : Token
  operand : Token
  isBinary : operator.IsBinary
  isName : operand.kind = .identifier

def linkTokens (links : List Link) : List Token :=
  links.flatMap fun link => [link.operator, link.operand]

theorem length_linkTokens (links : List Link) : (linkTokens links).length = 2 * links.length := by
  induction links with
  | nil => rfl
  | cons link others ih =>
      rw [linkTokens, List.flatMap_cons, List.length_append, ← linkTokens, ih, List.length_cons]
      simp only [List.length_cons, List.length_nil]
      omega

namespace Expr

/-- Whether an expression consists, from left to right, of a name and links. -/
inductive Reads : Expr → Token → List Link → Prop where
  | operand {word : Token} {id : NodeId} : Reads (.symbol ⟨word.text, id⟩ word.span) word []
  | binary {left right : Expr} {first : Token} {links others : List Link} {link : Link}
      {span : Span} : left.Reads first links → right.Reads link.operand others →
        Reads (.binary link.operator left right span) first (links ++ link :: others)

/-- The operator of a binary expression. -/
def operator? : Expr → Option Token
  | .binary operator _ _ _ => some operator
  | _ => none

/-- Whether every binary expression in a tree of them has operands that group
as the powers of their operators say. -/
def Grouped : Expr → Prop
  | .binary operator left right _ =>
      (∀ inner, left.operator? = some inner → operator.GroupsLeft inner) ∧
        (∀ inner, right.operator? = some inner → operator.GroupsRight inner) ∧
          left.Grouped ∧ right.Grouped
  | _ => True

end Expr

namespace Token

variable {token operator inner : Token}

theorem of_exponent {kind : TokenKind} {own : Power}
    (h : Grammar.script.trailing? kind = some (.exponent, own)) :
    kind = .starStar ∧ own = .exponent := by
  cases kind <;> cases h
  exact ⟨rfl, rfl⟩

theorem of_binary {kind : TokenKind} {own : Power}
    (h : Grammar.script.trailing? kind = some (.binary, own)) :
    kind ≠ .starStar ∧ own ≤ .multiplicative ∧ .none < own := by
  cases kind <;> cases h <;> decide

/-- A binary operator is either `**` or binds at most as closely as `*` and
groups to the left. -/
theorem IsBinary.cases (h : token.IsBinary) :
    token.kind = .starStar ∧ Grammar.script.trailing? token.kind = some (.exponent, token.power) ∧
        token.power = .exponent ∧ token.floor = .multiplicative ∨
      token.kind ≠ .starStar ∧ Grammar.script.trailing? token.kind = some (.binary, token.power) ∧
        token.power ≤ .multiplicative ∧ token.floor = token.power := by
  obtain ⟨form, own, htrailing, hform⟩ := h
  have hpower : token.power = own := by rw [power, htrailing]; rfl
  rcases hform with rfl | rfl
  · obtain ⟨hkind, hown, -⟩ := of_binary htrailing
    exact .inr ⟨hkind, hpower ▸ htrailing, hpower ▸ hown, if_neg hkind⟩
  · obtain ⟨hkind, hown⟩ := of_exponent htrailing
    exact .inl ⟨hkind, hpower ▸ htrailing, hpower.trans hown, if_pos hkind⟩

theorem IsBinary.none_lt (h : token.IsBinary) : .none < token.power := by
  rcases h.cases with ⟨-, -, hpower, -⟩ | ⟨-, htrailing, -⟩
  · rw [hpower]; decide
  · exact (of_binary htrailing).2.2

theorem IsBinary.startsLineUpdate (h : token.IsBinary) :
    Grammar.startsLineUpdate token = false := by
  have hother {kind : TokenKind}
      (hkind : Grammar.script.trailing? kind = some (.update, .call)) : token.kind ≠ kind := by
    rintro rfl
    obtain ⟨form, own, htrailing, hform⟩ := h
    cases hkind.symm.trans htrailing
    simp at hform
  simp [Grammar.startsLineUpdate, @hother .plusPlus rfl, @hother .minusMinus rfl]

theorem IsBinary.rank_floor (h : token.IsBinary) :
    token.kind = .starStar ∧ token.power.rank = 10 ∧ token.floor.rank = 9 ∨
      token.kind ≠ .starStar ∧ token.power.rank ≤ 9 ∧ token.floor.rank = token.power.rank := by
  rcases h.cases with ⟨hkind, -, hpower, hfloor⟩ | ⟨hkind, -, hpower, hfloor⟩
  · exact .inl ⟨hkind, congrArg Power.rank hpower, congrArg Power.rank hfloor⟩
  · exact .inr ⟨hkind, hpower, congrArg Power.rank hfloor⟩

theorem groupsLeft_iff (hoperator : operator.IsBinary) (hinner : inner.IsBinary) :
    operator.GroupsLeft inner ↔ operator.power ≤ inner.floor := by
  simp only [GroupsLeft, Power.le_iff, Power.lt_iff]
  rcases hoperator.rank_floor with ⟨hkind, _, _⟩ | ⟨hkind, _, _⟩ <;>
    rcases hinner.rank_floor with ⟨_, _, _⟩ | ⟨_, _, _⟩ <;>
    simp only [hkind, true_implies, false_implies, and_true] <;> omega

theorem groupsRight_iff (hoperator : operator.IsBinary) :
    operator.GroupsRight inner ↔ operator.floor < inner.power := by
  simp only [GroupsRight, Power.le_iff, Power.lt_iff]
  rcases hoperator.rank_floor with ⟨hkind, _, _⟩ | ⟨hkind, _, _⟩ <;>
    simp only [hkind, ne_eq, not_true_eq_false, not_false_eq_true, true_implies, false_implies,
      and_true] <;> omega

theorem IsBinary.le_floor (h : token.IsBinary) {power : Power} (hpower : power < token.power) :
    power ≤ token.floor := by
  rw [Power.lt_iff] at hpower
  rw [Power.le_iff]
  rcases h.rank_floor with ⟨_, _, _⟩ | ⟨_, _, _⟩ <;> omega

end Token

/-- The links behind a link are those that bind closer than its right operand
may end, up to one that does not, and the others. -/
theorem Link.exists_split (link : Link) (others : List Link) :
    ∃ inner outer, others = inner ++ outer ∧
      (∀ other ∈ inner, link.operator.floor < other.operator.power) ∧
        ∀ other ∈ outer.head?, other.operator.power ≤ link.operator.floor := by
  let binds (other : Link) : Bool := link.operator.floor < other.operator.power
  refine ⟨others.takeWhile binds, others.dropWhile binds,
    List.takeWhile_append_dropWhile.symm, fun other hother => ?_, fun other hother => ?_⟩
  · have hbinds : binds other := List.mem_takeWhile_imp hother
    exact of_decide_eq_true hbinds
  · have hstop := List.head?_dropWhile_not binds others
    rw [Option.mem_def.mp hother] at hstop
    exact Nat.not_lt.mp (of_decide_eq_false hstop)

namespace Expr

variable {tree other left right : Expr} {first : Token} {links : List Link}

theorem Reads.exists_name (h : tree.Reads first []) :
    ∃ id, tree = .symbol ⟨first.text, id⟩ first.span := by
  generalize hlinks : ([] : List Link) = links at h
  cases h with
  | operand => exact ⟨_, rfl⟩
  | binary => exact absurd hlinks.symm (by simp)

theorem Reads.exists_binary (h : tree.Reads first links) (hlinks : links ≠ []) :
    ∃ left right before link after span, tree = .binary link.operator left right span ∧
      links = before ++ link :: after ∧ left.Reads first before ∧
        right.Reads link.operand after := by
  cases h with
  | operand => exact absurd rfl hlinks
  | binary hleft hright => exact ⟨_, _, _, _, _, _, rfl, rfl, hleft, hright⟩

theorem Reads.isBinary (h : tree.Reads first links) {operator : Token}
    (hoperator : tree.operator? = some operator) : operator.IsBinary := by
  cases h with
  | operand => cases hoperator
  | @binary _ _ _ _ _ link =>
      cases hoperator
      exact link.isBinary

/-- Whether the operators among some links are bounded as that of a tree is. -/
def Bounds (tree : Expr) (links : List Link) : Prop :=
  ∀ p : Power,
    ((∀ operator, tree.operator? = some operator → p ≤ operator.floor) →
      ∀ link ∈ links, p ≤ link.operator.floor) ∧
    ((∀ operator, tree.operator? = some operator → p < operator.power) →
      ∀ link ∈ links, p < link.operator.power)

theorem Bounds.sides {operator : Token} {span : Span} {before after : List Link}
    (hleft : left.Bounds before) (hright : right.Bounds after) (hreads : left.Reads first before)
    (hoperator : operator.IsBinary) (h : (binary operator left right span).Grouped) :
    (∀ link ∈ before, operator.power ≤ link.operator.floor) ∧
      ∀ link ∈ after, operator.floor < link.operator.power := by
  obtain ⟨hgroupsLeft, hgroupsRight, -, -⟩ := h
  refine ⟨(hleft operator.power).1 fun inner hinner => ?_,
    (hright operator.floor).2 fun inner hinner => ?_⟩
  · exact (Token.groupsLeft_iff hoperator (hreads.isBinary hinner)).mp (hgroupsLeft inner hinner)
  · exact (Token.groupsRight_iff hoperator).mp (hgroupsRight inner hinner)

theorem Reads.bounds (h : tree.Reads first links) (hgrouped : tree.Grouped) :
    tree.Bounds links := by
  induction h with
  | operand => exact fun p => ⟨fun _ => by simp, fun _ => by simp⟩
  | @binary left right first before after link span hleft hright ihleft ihright =>
      obtain ⟨hbefore, hafter⟩ := (ihleft hgrouped.2.2.1).sides (ihright hgrouped.2.2.2) hleft
        link.isBinary hgrouped
      intro p
      have hroot := link.isBinary.rank_floor
      refine ⟨fun hp other hother => ?_, fun hp other hother => ?_⟩
      · have hlink := hp link.operator rfl
        have hinner := other.isBinary.rank_floor
        rcases List.mem_append.mp hother with hother | hother
        · have hside := hbefore other hother
          simp only [Power.le_iff] at hlink hside ⊢
          omega
        · rcases List.mem_cons.mp hother with rfl | hother
          · exact hlink
          · have hside := hafter other hother
            simp only [Power.le_iff, Power.lt_iff] at hlink hside ⊢
            omega
      · have hlink := hp link.operator rfl
        have hinner := other.isBinary.rank_floor
        rcases List.mem_append.mp hother with hother | hother
        · have hside := hbefore other hother
          simp only [Power.le_iff, Power.lt_iff] at hlink hside ⊢
          omega
        · rcases List.mem_cons.mp hother with rfl | hother
          · exact hlink
          · have hside := hafter other hother
            simp only [Power.lt_iff] at hlink hside ⊢
            omega

/-- Two ways to split a list at one of its members are the same, or the member of
each lies to a side of that of the other. -/
theorem eq_or_apart {α : Type} {x y : α} {before after before' after' : List α}
    (h : before ++ x :: after = before' ++ y :: after') :
    (before = before' ∧ x = y ∧ after = after') ∨ (x ∈ before' ∧ y ∈ after) ∨
      (y ∈ before ∧ x ∈ after') := by
  rcases List.append_eq_append_iff.mp h with ⟨_ | ⟨z, between⟩, rfl, hrest⟩ |
    ⟨_ | ⟨z, between⟩, rfl, hrest⟩
  · obtain ⟨rfl, rfl⟩ := List.cons.inj hrest
    exact .inl ⟨(List.append_nil before).symm, rfl, rfl⟩
  · obtain ⟨rfl, rfl⟩ := List.cons.inj hrest
    exact .inr (.inl ⟨by simp, by simp⟩)
  · obtain ⟨rfl, rfl⟩ := List.cons.inj hrest
    exact .inl ⟨List.append_nil before', rfl, rfl⟩
  · obtain ⟨rfl, rfl⟩ := List.cons.inj hrest
    exact .inr (.inr ⟨by simp, by simp⟩)

/-- The first of two operators is inside the left operand of the second one or
has the second one inside its right operand, but the powers allow only one. -/
theorem Reads.unique (h : tree.Reads first links) (hgrouped : tree.Grouped)
    (hother : other.Reads first links) (hothers : other.Grouped) :
    other.relabel .unplaced = tree.relabel .unplaced := by
  induction h generalizing other with
  | operand =>
      obtain ⟨id, rfl⟩ := hother.exists_name
      rfl
  | @binary left right first before after link span hleft hright ihleft ihright =>
      obtain ⟨left', right', before', link', after', span', rfl, hsplit, hleft', hright'⟩ :=
        hother.exists_binary (by simp)
      obtain ⟨hbefore, hafter⟩ := (hleft.bounds hgrouped.2.2.1).sides
        (hright.bounds hgrouped.2.2.2) hleft link.isBinary hgrouped
      obtain ⟨hbefore', hafter'⟩ := (hleft'.bounds hothers.2.2.1).sides
        (hright'.bounds hothers.2.2.2) hleft' link'.isBinary hothers
      rcases eq_or_apart hsplit with ⟨rfl, rfl, rfl⟩ | ⟨hlink, hlink'⟩ | ⟨hlink', hlink⟩
      · simp only [relabel, ihleft hgrouped.2.2.1 hleft' hothers.2.2.1,
          ihright hgrouped.2.2.2 hright' hothers.2.2.2]
        rfl
      · exact absurd (hafter link' hlink') (Nat.not_lt.mpr (hbefore' link hlink))
      · exact absurd (hafter' link hlink) (Nat.not_lt.mpr (hbefore link' hlink'))

end Expr

namespace Grammar

open Reader

variable {input : Input} {nt : Nonterminals}

/-- What is read of a name and links with tokens that bind closer than a
power. -/
structure Groups (power : Power) (first : Token) (links : List Link) (tree : Expr) : Prop where
  reads : tree.Reads first links
  grouped : tree.Grouped
  above : ∀ operator, tree.operator? = some operator → power < operator.power

/-- Whether names with fewer links than a bound are read as they should be by
the expressions that nest in others. -/
def ReadsChains (nt : Nonterminals) (input : Input) (bound : Nat) : Prop :=
  ∀ (power : Power) (first : Token) (links : List Link) (next : Token) (rest : List Token),
    links.length < bound → first.kind = .identifier →
      (∀ link ∈ links, power < link.operator.power) → StopsAt power next →
        (nt.expr power).Accepts input (first :: linkTokens links) (next :: rest)
          (Groups power first links)

theorem accepts_name {first : Token} {rest : List Token} (h : first.kind = .identifier) :
    readPrimary.Accepts input [first] rest fun tree => tree.Reads first [] := by
  refine Accepts.pass ?_
  simp only [h]
  exact accepts_freshId.look fun id _ => accepts_pure .operand

/-- An operator that binds closely enough takes the links that bind closer than
it does. -/
theorem accepts_operator (hscript : input.grammar = .script) {bound : Nat}
    (hnt : ReadsChains nt input bound) {power : Power} {left : Expr} {first : Token}
    {done inner : List Link} {link : Link} {next : Token}
    (hlength : inner.length < bound) (hleft : Groups power first done left)
    (hgroups : ∀ operator, left.operator? = some operator → link.operator.GroupsLeft operator)
    (hpower : power < link.operator.power)
    (hinner : ∀ other ∈ inner, link.operator.floor < other.operator.power)
    (hstop : StopsAt link.operator.floor next) (rest : List Token) :
    (readContinuation nt power left).Accepts input
      (link.operator :: link.operand :: linkTokens inner) (next :: rest)
      fun again => ∃ tree, again = .again tree ∧ Groups power first (done ++ link :: inner) tree ∧
        tree.operator? = some link.operator := by
  have hbinary : (readBinary nt link.operator.floor left).Accepts input
      (link.operator :: link.operand :: linkTokens inner) (next :: rest)
      fun tree => Groups power first (done ++ link :: inner) tree ∧
        tree.operator? = some link.operator := by
    have hinside := hnt link.operator.floor link.operand inner next rest hlength link.isName hinner
      hstop
    refine Accepts.pass (hinside.conclude fun right hright => accepts_pure ⟨⟨?_, ?_, ?_⟩, rfl⟩)
    · exact .binary hleft.reads hright.reads
    · exact ⟨hgroups, fun operator hoperator =>
        (Token.groupsRight_iff link.isBinary).mpr (hright.above operator hoperator),
        hleft.grouped, hright.grouped⟩
    · rintro operator ⟨⟩
      exact hpower
  have hpowers : ¬ link.operator.power ≤ power := Nat.not_le.mpr hpower
  have hline := link.isBinary.startsLineUpdate
  rcases link.isBinary.cases with ⟨-, htrailing, -, hfloor⟩ | ⟨-, htrailing, -, hfloor⟩
  all_goals
    rw [hfloor] at hbinary
    exact accepts_continue hscript htrailing hpowers hline hbinary

/-- The token in front of which the right operand of an operator ends: the next
operator that does not bind closer, or the token behind all links. -/
theorem stopsAt_next {floor : Power} {outer : List Link} {next : Token} (rest : List Token)
    (houter : ∀ link ∈ outer.head?, link.operator.power ≤ floor) (hnext : StopsAt floor next) :
    ∃ stop others, linkTokens outer ++ next :: rest = stop :: others ∧ StopsAt floor stop := by
  cases outer with
  | nil => exact ⟨next, rest, rfl, hnext⟩
  | cons link others =>
      refine ⟨link.operator, link.operand :: (linkTokens others ++ next :: rest), rfl, ?_⟩
      intro form own htrailing
      have hpower : link.operator.power = own := by rw [Token.power, htrailing]; rfl
      exact hpower ▸ houter link rfl

theorem StopsAt.mono {power floor : Power} {next : Token} (h : StopsAt power next)
    (hle : power ≤ floor) : StopsAt floor next :=
  fun form own htrailing => Nat.le_trans (h form own htrailing) hle

/-- What has been read of a chain takes link after link, where each operator
groups with that of what has been read. -/
theorem accepts_links (hscript : input.grammar = .script) {bound : Nat}
    (hnt : ReadsChains nt input bound) {power : Power} {first next : Token} {rest : List Token}
    (hstop : StopsAt power next) (turns : Nat) {left : Expr} {done links : List Link}
    (hturns : links.length < turns) (hlength : links.length ≤ bound)
    (hleft : Groups power first done left)
    (hgroups : ∀ link ∈ links.head?, ∀ operator, left.operator? = some operator →
      link.operator.GroupsLeft operator)
    (hpowers : ∀ link ∈ links, power < link.operator.power) :
    (repeatAtMost (readContinuation nt power) turns left).Accepts input (linkTokens links)
      (next :: rest) (Groups power first (done ++ links)) := by
  induction turns generalizing left done links with
  | zero => exact absurd hturns (Nat.not_lt_zero _)
  | succ turns ih =>
      cases links with
      | nil =>
          rw [List.append_nil]
          exact accepts_done ((accepts_stop hscript hstop).mono
            fun again hagain => ⟨left, hagain, hleft⟩)
      | cons link others =>
          obtain ⟨inner, outer, rfl, hinner, houter⟩ := link.exists_split others
          have hpower := hpowers link List.mem_cons_self
          have hfloor := link.isBinary.le_floor hpower
          obtain ⟨stop, behind, hahead, hstops⟩ :=
            stopsAt_next rest houter (hstop.mono hfloor)
          have hinnerLength : inner.length < bound := by
            simp only [List.length_cons, List.length_append] at hlength; omega
          have htake := accepts_operator hscript hnt hinnerLength hleft (hgroups link rfl) hpower
            hinner hstops behind
          rw [← hahead] at htake
          rw [show linkTokens (link :: (inner ++ outer)) =
            (link.operator :: link.operand :: linkTokens inner) ++ linkTokens outer by
              simp [linkTokens]]
          refine accepts_again htake fun tree htree => ?_
          rw [show done ++ link :: (inner ++ outer) = (done ++ link :: inner) ++ outer by simp]
          refine ih ?_ ?_ htree.1 ?_ ?_
          · simp only [List.length_cons, List.length_append] at hturns; omega
          · simp only [List.length_cons, List.length_append] at hlength; omega
          · intro other hother operator hoperator
            obtain rfl : link.operator = operator := Option.some.inj (htree.2.symm.trans hoperator)
            exact (Token.groupsLeft_iff other.isBinary link.isBinary).mpr (houter other hother)
          · intro other hother
            exact hpowers other (List.mem_cons_of_mem link (List.mem_append_right inner hother))

theorem readsChains_succ (hscript : input.grammar = .script) {bound : Nat} {stmt : Reader Stmt}
    {pattern : Reader PatternParts} (hnt : ReadsChains nt input bound) :
    ReadsChains ⟨readExpr nt, stmt, pattern⟩ input (bound + 1) := by
  intro power first links next rest hlength hfirst hpowers hstop
  have hleading : script.leading? first.kind = some .primary := by rw [hfirst]; rfl
  refine accepts_readExpr hscript hleading (accepts_name hfirst) fun left hleft turns hturns => ?_
  obtain ⟨id, rfl⟩ := hleft.exists_name
  have hgroups : Groups power first [] (.symbol ⟨first.text, id⟩ first.span) :=
    ⟨hleft, trivial, fun _ h => nomatch h⟩
  have hlinks := length_linkTokens links
  rw [linkTokens] at hlinks
  exact accepts_links hscript hnt hstop turns (by omega) (Nat.le_of_lt_succ hlength) hgroups
    (fun _ _ _ h => nomatch h) hpowers

theorem readsChains_nonterminals (hscript : input.grammar = .script) (depth : Nat) :
    ReadsChains (nonterminals depth) input depth := by
  induction depth with
  | zero => exact fun _ _ _ _ _ hlength => absurd hlength (Nat.not_lt_zero _)
  | succ depth ih => exact readsChains_succ hscript ih

end Grammar

namespace Grammar

/-- Names with binary operators between them are read to the end as a tree over
them that groups as the powers of the operators say, which is the only one. -/
theorem chain_grouped (file : String) (first last : Token) (links : List Link)
    (hfirst : first.kind = .identifier) (hlast : last.kind = .endOfInput) :
    ∃ tree after,
      knot (fun nt => nt.expr .none)
          ⟨.ofList (first :: linkTokens links ++ [last]), file, .script⟩ .start = .ok tree after ∧
        after.place = (first :: linkTokens links).length ∧
        tree.Reads first links ∧ tree.Grouped ∧
        ∀ other : Expr, other.Reads first links → other.Grouped →
          other.relabel .unplaced = tree.relabel .unplaced := by
  let tokens := first :: linkTokens links
  let input : Input := ⟨.ofList (tokens ++ [last]), file, .script⟩
  have hdepth : links.length < depthOf input.tokens := by
    have hsize := congrArg List.length (@TokenStream.toList_ofList tokens last hlast)
    rw [TokenStream.length_toList, List.length_append, List.length_cons, length_linkTokens]
      at hsize
    change links.length < 2 * (TokenStream.ofList (tokens ++ [last])).size + 2
    omega
  have hstop : StopsAt .none last := by
    intro form own htrailing
    rw [hlast] at htrailing
    cases htrailing
  obtain ⟨tree, after, hrun, hafter, htree⟩ :=
    (readsChains_nonterminals rfl (depthOf input.tokens) .none first links last [] hdepth hfirst
      (fun link _ => link.isBinary.none_lt) hstop).run hlast
  exact ⟨tree, after, hrun, hafter, htree.reads, htree.grouped, fun other hother hothers =>
    htree.reads.unique htree.grouped hother hothers⟩

/-- The links of `a + b ** c`. -/
def sumLinks : List Link :=
  [⟨⟨.plus, "+", ⟨2, 3⟩, false⟩, ⟨.identifier, "b", ⟨4, 5⟩, false⟩, ⟨_, _, rfl, .inl rfl⟩, rfl⟩,
    ⟨⟨.starStar, "**", ⟨6, 8⟩, false⟩, ⟨.identifier, "c", ⟨9, 10⟩, false⟩, ⟨_, _, rfl, .inr rfl⟩,
      rfl⟩]

theorem chain_grouped_of_sum :
    let first : Token := ⟨.identifier, "a", ⟨0, 1⟩, false⟩
    let last : Token := .endAt 10 false
    first.kind = .identifier ∧ last.kind = .endOfInput ∧
      ∃ tree after,
        knot (fun nt => nt.expr .none)
            ⟨.ofList (first :: linkTokens sumLinks ++ [last]), "sum.js", .script⟩ .start =
          .ok tree after ∧
        after.place = 5 ∧ tree.Reads first sumLinks ∧ tree.Grouped ∧
        ∀ other : Expr, other.Reads first sumLinks → other.Grouped →
          other.relabel .unplaced = tree.relabel .unplaced :=
  ⟨rfl, rfl, chain_grouped "sum.js" ⟨.identifier, "a", ⟨0, 1⟩, false⟩ (.endAt 10 false) sumLinks
    rfl rfl⟩

end Grammar

end ScriptKinds
