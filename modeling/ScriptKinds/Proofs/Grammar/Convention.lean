import Mathlib.Data.List.Induction
import ScriptKinds.Proofs.Grammar.Grouping
import ScriptKinds.Proofs.Token.Layout

/-!
Grouping by the convention of ECMAScript.

ECMAScript ranks the binary operators in eleven tiers.  Here there are seven levels:
the logical operators share one, so do the bitwise ones, and so do equalities and
comparisons.  A chain is grouped by the convention all the same unless an operator is
followed by one of its own level and of a closer tier.
-/

namespace ScriptKinds

/-- The tier of a binary operator in ECMAScript, from loosest to closest.  A script
mixes `??` neither with `||` nor with `&&`. -/
def TokenKind.tier : TokenKind → Nat
  | .or | .nullish => 1
  | .and => 2
  | .pipe => 3
  | .caret => 4
  | .ampersand => 5
  | .equals | .notEquals | .strictEquals | .strictNotEquals => 6
  | .less | .lessEquals | .greater | .greaterEquals | .inWord | .instanceofWord => 7
  | .shiftLeft | .shiftRight | .unsignedShiftRight => 8
  | .plus | .dash => 9
  | .star | .slash | .percent => 10
  | .starStar => 11
  | _ => 0

/-- The level of a binary operator, from loosest to closest. -/
def TokenKind.level : TokenKind → Nat
  | .or | .nullish | .and => 1
  | .pipe | .caret | .ampersand => 2
  | .equals | .notEquals | .strictEquals | .strictNotEquals | .less | .lessEquals | .greater
  | .greaterEquals | .inWord | .instanceofWord => 3
  | .shiftLeft | .shiftRight | .unsignedShiftRight => 4
  | .plus | .dash => 5
  | .star | .slash | .percent => 6
  | .starStar => 7
  | _ => 0

namespace TokenKind

theorem level_tier (kind : TokenKind) :
    kind.level = 0 ∧ kind.tier = 0 ∨ kind.level = 1 ∧ 1 ≤ kind.tier ∧ kind.tier ≤ 2 ∨
      kind.level = 2 ∧ 3 ≤ kind.tier ∧ kind.tier ≤ 5 ∨
      kind.level = 3 ∧ 6 ≤ kind.tier ∧ kind.tier ≤ 7 ∨
      4 ≤ kind.level ∧ kind.level ≤ 7 ∧ kind.tier = kind.level + 4 := by
  cases kind <;> decide

theorem tier_eq_iff {kind : TokenKind} : kind.tier = 11 ↔ kind = .starStar := by
  cases kind <;> decide

end TokenKind

namespace Token

/-- The tier of an operator in the conventional precedence. -/
def tier (token : Token) : Nat :=
  token.kind.tier

/-- The level of an operator in the table of the grammar. -/
def level (token : Token) : Nat :=
  token.kind.level

/-- Whether an operator may be that of the left operand of another one by a ranking in
which only `**` groups to the right. -/
def RanksLeft (rank : Token → Nat) (operator inner : Token) : Prop :=
  rank operator ≤ rank inner ∧ (operator.kind = .starStar → rank operator < rank inner)

/-- Whether an operator may be that of the right operand of another one by such a
ranking. -/
def RanksRight (rank : Token → Nat) (operator inner : Token) : Prop :=
  rank operator ≤ rank inner ∧ (operator.kind ≠ .starStar → rank operator < rank inner)

instance (rank : Token → Nat) (operator inner : Token) :
    Decidable (operator.RanksLeft rank inner) :=
  inferInstanceAs (Decidable (_ ∧ (_ → _)))

variable {rank : Token → Nat} {token operator inner other : Token}

theorem RanksLeft.trans (h : operator.RanksLeft rank inner) (hle : rank inner ≤ rank other) :
    operator.RanksLeft rank other :=
  ⟨Nat.le_trans h.1 hle, fun hkind => Nat.lt_of_lt_of_le (h.2 hkind) hle⟩

theorem RanksRight.trans (h : operator.RanksRight rank inner) (hle : rank inner ≤ rank other) :
    operator.RanksRight rank other :=
  ⟨Nat.le_trans h.1 hle, fun hkind => Nat.lt_of_lt_of_le (h.2 hkind) hle⟩

theorem tier_eq_iff : token.tier = 11 ↔ token.kind = .starStar :=
  TokenKind.tier_eq_iff

theorem tier_lt_of_level_lt (h : operator.level < inner.level) : operator.tier < inner.tier := by
  have := operator.kind.level_tier
  have := inner.kind.level_tier
  simp only [tier, level] at h ⊢
  omega

theorem tier_eq_of_level_eq (h : operator.level = inner.level) (hkind : operator.kind = .starStar) :
    operator.tier = inner.tier := by
  have := operator.kind.level_tier
  have := inner.kind.level_tier
  have := tier_eq_iff.mpr hkind
  simp only [tier, level] at *
  omega

theorem RanksRight.not_ranksLeft (h : operator.RanksRight tier inner) :
    ¬inner.RanksLeft tier operator := by
  rintro ⟨hle, hlt⟩
  have htier : operator.tier = inner.tier := Nat.le_antisymm h.1 hle
  by_cases hkind : operator.kind = .starStar
  · have hinner : inner.kind = .starStar :=
      tier_eq_iff.mp (htier.symm.trans (tier_eq_iff.mpr hkind))
    exact absurd (hlt hinner) (Nat.not_lt.mpr h.1)
  · exact absurd (h.2 hkind) (Nat.not_lt.mpr hle)

/-- An operator that may not take another one to its left may be to the right of
it. -/
theorem ranksRight_of_not_ranksLeft (h : ¬inner.RanksLeft tier operator) :
    operator.RanksRight tier inner := by
  rw [RanksLeft, not_and'] at h
  by_cases hlt : operator.tier < inner.tier
  · exact ⟨Nat.le_of_lt hlt, fun _ => hlt⟩
  · have hkind : inner.kind = .starStar := by
      by_contra hother
      exact h (fun hkind => absurd hkind hother) (Nat.not_lt.mp hlt)
    have hinner := tier_eq_iff.mpr hkind
    have hle : operator.tier ≤ 11 := by
      have := operator.kind.level_tier
      rw [tier]
      omega
    have hoperator : operator.tier = 11 := by omega
    exact ⟨hoperator.le.trans hinner.ge, fun hne => absurd (tier_eq_iff.mp hoperator) hne⟩

theorem IsBinary.level_eq (h : token.IsBinary) : token.level + 3 = token.power.rank := by
  obtain ⟨form, own, htrailing, hform⟩ := h
  have hpower : token.power = own := by rw [power, htrailing]; rfl
  rw [hpower, level]
  generalize token.kind = kind at htrailing ⊢
  cases kind <;> cases htrailing <;> first | rfl | simp at hform

theorem GroupsLeft.ranksLeft (h : operator.GroupsLeft inner) (hoperator : operator.IsBinary)
    (hinner : inner.IsBinary) : operator.RanksLeft level inner := by
  simp only [GroupsLeft, Power.le_iff, Power.lt_iff, ← hoperator.level_eq, ← hinner.level_eq] at h
  exact ⟨by omega, fun hkind => Nat.lt_of_add_lt_add_right (h.2 hkind)⟩

theorem GroupsRight.ranksRight (h : operator.GroupsRight inner) (hoperator : operator.IsBinary)
    (hinner : inner.IsBinary) : operator.RanksRight level inner := by
  simp only [GroupsRight, Power.le_iff, Power.lt_iff, ← hoperator.level_eq, ← hinner.level_eq] at h
  exact ⟨by omega, fun hkind => Nat.lt_of_add_lt_add_right (h.2 hkind)⟩

end Token

namespace Expr

/-- Whether every binary expression in a tree of them has operands that group as a
ranking says. -/
def GroupedBy (rank : Token → Nat) : Expr → Prop
  | .binary operator left right _ =>
      (∀ inner, left.operator? = some inner → operator.RanksLeft rank inner) ∧
        (∀ inner, right.operator? = some inner → operator.RanksRight rank inner) ∧
          left.GroupedBy rank ∧ right.GroupedBy rank
  | _ => True

/-- Puts a link behind an expression.  Its operator takes as its left operand all that
it may by the convention. -/
def extend (link : Link) : Expr → Expr
  | .binary operator left right span =>
      if link.operator.RanksLeft Token.tier operator then
        .binary link.operator (.binary operator left right span)
          (.symbol ⟨link.operand.text, 0⟩ link.operand.span) ⟨0, 0⟩
      else .binary operator left (right.extend link) span
  | other => .binary link.operator other (.symbol ⟨link.operand.text, 0⟩ link.operand.span) ⟨0, 0⟩

/-- A name and links, grouped by the convention. -/
def conventional (first : Token) (links : List Link) : Expr :=
  links.foldl (fun tree link => tree.extend link) (.symbol ⟨first.text, 0⟩ first.span)

variable {tree other left right : Expr} {first : Token} {links : List Link} {link : Link}
  {rank : Token → Nat}

theorem Reads.exists_operator (h : tree.Reads first links) (hlinks : links ≠ []) :
    ∃ operator, tree.operator? = some operator := by
  obtain ⟨_, _, _, link, _, _, rfl, -⟩ := h.exists_binary hlinks
  exact ⟨link.operator, rfl⟩

theorem Reads.groupedBy_level (h : tree.Reads first links) (hgrouped : tree.Grouped) :
    tree.GroupedBy Token.level := by
  induction h with
  | operand => trivial
  | @binary left right first before after link span hleft hright ihleft ihright =>
      obtain ⟨hgroupsLeft, hgroupsRight, hgroupedLeft, hgroupedRight⟩ := hgrouped
      refine ⟨fun inner hinner => ?_, fun inner hinner => ?_, ihleft hgroupedLeft,
        ihright hgroupedRight⟩
      · exact (hgroupsLeft inner hinner).ranksLeft link.isBinary (hleft.isBinary hinner)
      · exact (hgroupsRight inner hinner).ranksRight link.isBinary (hright.isBinary hinner)

theorem Reads.rank_le (h : tree.Reads first links) (hgrouped : tree.GroupedBy rank)
    {operator : Token} (hoperator : tree.operator? = some operator) :
    ∀ link ∈ links, rank operator ≤ rank link.operator := by
  induction h generalizing operator with
  | operand => cases hoperator
  | @binary left right first before after link span hleft hright ihleft ihright =>
      obtain ⟨hranksLeft, hranksRight, hgroupedLeft, hgroupedRight⟩ := hgrouped
      cases hoperator
      intro other hother
      rcases List.mem_append.mp hother with hother | hother
      · obtain ⟨inner, hinner⟩ := hleft.exists_operator (List.ne_nil_of_mem hother)
        exact Nat.le_trans (hranksLeft inner hinner).1 (ihleft hgroupedLeft hinner other hother)
      · rcases List.mem_cons.mp hother with rfl | hother
        · exact Nat.le_refl _
        · obtain ⟨inner, hinner⟩ := hright.exists_operator (List.ne_nil_of_mem hother)
          exact Nat.le_trans (hranksRight inner hinner).1
            (ihright hgroupedRight hinner other hother)

theorem GroupedBy.sides {operator second : Token} {before after : List Link} {span : Span}
    (h : (binary operator left right span).GroupedBy rank) (hleft : left.Reads first before)
    (hright : right.Reads second after) :
    (∀ link ∈ before, operator.RanksLeft rank link.operator) ∧
      ∀ link ∈ after, operator.RanksRight rank link.operator := by
  obtain ⟨hranksLeft, hranksRight, hgroupedLeft, hgroupedRight⟩ := h
  constructor
  · intro link hlink
    obtain ⟨inner, hinner⟩ := hleft.exists_operator (List.ne_nil_of_mem hlink)
    exact (hranksLeft inner hinner).trans (hleft.rank_le hgroupedLeft hinner link hlink)
  · intro link hlink
    obtain ⟨inner, hinner⟩ := hright.exists_operator (List.ne_nil_of_mem hlink)
    exact (hranksRight inner hinner).trans (hright.rank_le hgroupedRight hinner link hlink)

theorem operator?_relabel (tree : Expr) :
    (tree.relabel .unplaced).operator? = tree.operator? := by
  cases tree <;> rfl

theorem Reads.groupedBy_relabel (h : tree.Reads first links) :
    (tree.relabel .unplaced).GroupedBy rank ↔ tree.GroupedBy rank := by
  induction h with
  | operand => exact Iff.rfl
  | binary _ _ ihleft ihright =>
      simp only [relabel, GroupedBy, operator?_relabel, ihleft, ihright]
      rfl

section Existence

theorem Reads.extend (h : tree.Reads first links) (link : Link) :
    (tree.extend link).Reads first (links ++ [link]) := by
  induction h with
  | operand => exact .binary .operand .operand
  | @binary left right first before after inner span hleft hright _ ihright =>
      rw [Expr.extend]
      split
      · exact .binary (.binary hleft hright) .operand
      · rw [List.append_assoc, List.cons_append]
        exact .binary hleft ihright

theorem Reads.operator?_extend (h : tree.Reads first links) (link : Link) :
    (tree.extend link).operator? = some link.operator ∨
      (tree.extend link).operator? = tree.operator? := by
  cases h with
  | operand => exact .inl rfl
  | binary =>
      rw [Expr.extend]
      split
      · exact .inl rfl
      · exact .inr rfl

theorem Reads.groupedBy_extend (h : tree.Reads first links) (htree : tree.GroupedBy Token.tier)
    (link : Link) : (tree.extend link).GroupedBy Token.tier := by
  induction h with
  | operand => exact ⟨fun _ h => (nomatch h), fun _ h => (nomatch h), trivial, trivial⟩
  | @binary left right first before after inner span hleft hright _ ihright =>
      obtain ⟨htiersLeft, htiersRight, hgroupedLeft, hgroupedRight⟩ := htree
      rw [Expr.extend]
      split
      · rename_i htiers
        refine ⟨?_, fun _ h => (nomatch h), ?_, trivial⟩
        · rintro operator ⟨⟩
          exact htiers
        · exact ⟨htiersLeft, htiersRight, hgroupedLeft, hgroupedRight⟩
      · rename_i htiers
        refine ⟨htiersLeft, fun operator hoperator => ?_, hgroupedLeft, ihright hgroupedRight⟩
        rcases hright.operator?_extend link with hnew | hold
        · obtain rfl : link.operator = operator := Option.some.inj (hnew.symm.trans hoperator)
          exact Token.ranksRight_of_not_ranksLeft htiers
        · exact htiersRight operator (hold.symm.trans hoperator)

theorem conventional_spec (first : Token) (links : List Link) :
    (conventional first links).Reads first links ∧
      (conventional first links).GroupedBy Token.tier := by
  induction links using List.reverseRecOn with
  | nil => exact ⟨.operand, trivial⟩
  | append_singleton links link ih =>
      rw [conventional, List.foldl_append, List.foldl_cons, List.foldl_nil, ← conventional]
      exact ⟨ih.1.extend link, ih.1.groupedBy_extend ih.2 link⟩

end Existence

/-- Of two operators on top of trees over the same chain, each would have the other
one to a side where only one of them may. -/
theorem Reads.unique_conventional (h : tree.Reads first links) (htree : tree.GroupedBy Token.tier)
    (hother : other.Reads first links) (hothers : other.GroupedBy Token.tier) :
    other.relabel .unplaced = tree.relabel .unplaced := by
  induction h generalizing other with
  | operand =>
      obtain ⟨id, rfl⟩ := hother.exists_name
      rfl
  | @binary left right first before after link span hleft hright ihleft ihright =>
      obtain ⟨left', right', before', link', after', span', rfl, hsplit, hleft', hright'⟩ :=
        hother.exists_binary (by simp)
      obtain ⟨hbefore, hafter⟩ := htree.sides hleft hright
      obtain ⟨hbefore', hafter'⟩ := hothers.sides hleft' hright'
      rcases eq_or_apart hsplit with ⟨rfl, rfl, rfl⟩ | ⟨hlink, hlink'⟩ | ⟨hlink', hlink⟩
      · simp only [relabel, ihleft htree.2.2.1 hleft' hothers.2.2.1,
          ihright htree.2.2.2 hright' hothers.2.2.2]
        rfl
      · exact absurd (hbefore' link hlink) (hafter link' hlink').not_ranksLeft
      · exact absurd (hbefore link' hlink') (hafter' link hlink).not_ranksLeft

end Expr

/-- Whether no operator is followed by one of its own level and of a closer tier, with
none but operators of closer levels between them. -/
def Unmixed (links : List Link) : Prop :=
  ∀ front between back first last, links = front ++ first :: (between ++ last :: back) →
    first.operator.level = last.operator.level →
      (∀ link ∈ between, first.operator.level < link.operator.level) →
        last.operator.tier ≤ first.operator.tier

section Mixing

variable {before after : List Link}

theorem Unmixed.nil : Unmixed [] := by
  intro front between back first last h
  simp at h

theorem Unmixed.of_append_left (h : Unmixed (before ++ after)) : Unmixed before := by
  rintro front between back first last rfl
  exact h front between (back ++ after) first last (by simp)

theorem Unmixed.of_append_right (h : Unmixed (before ++ after)) : Unmixed after := by
  rintro front between back first last rfl
  exact h (before ++ front) between back first last (by simp)

namespace Expr

variable {tree left right : Expr} {first : Token} {links : List Link} {link : Link}

/-- Behind the operator of the left operand there are only operators of closer levels,
unless that one is `**`. -/
theorem Reads.tier_le_of_unmixed (hleft : left.Reads first before)
    (hgrouped : left.GroupedBy Token.level) (hunmixed : Unmixed (before ++ link :: after))
    {inner : Token} (hinner : left.operator? = some inner)
    (hlevel : inner.level = link.operator.level) (hkind : inner.kind ≠ .starStar) :
    link.operator.tier ≤ inner.tier := by
  cases hleft with
  | operand => cases hinner
  | @binary _ _ _ front between root _ hfront hbetween =>
      cases hinner
      obtain ⟨-, hsides⟩ := hgrouped.sides hfront hbetween
      exact hunmixed front between after root link (by simp) hlevel
        fun other hother => (hsides other hother).2 hkind

theorem Reads.conventional_of_unmixed (h : tree.Reads first links)
    (hgrouped : tree.GroupedBy Token.level) (hunmixed : Unmixed links) :
    tree.GroupedBy Token.tier := by
  induction h with
  | operand => trivial
  | @binary left right first before after link span hleft hright ihleft ihright =>
      obtain ⟨hlevelsLeft, hlevelsRight, hgroupedLeft, hgroupedRight⟩ := hgrouped
      refine ⟨fun inner hinner => ?_, fun inner hinner => ?_, ?_, ?_⟩
      · obtain ⟨hle, hlt⟩ := hlevelsLeft inner hinner
        rcases Nat.lt_or_eq_of_le hle with hcloser | hlevel
        · have htier := Token.tier_lt_of_level_lt hcloser
          exact ⟨Nat.le_of_lt htier, fun _ => htier⟩
        · have hkind : link.operator.kind ≠ .starStar :=
            fun hkind => absurd (hlt hkind) (Nat.not_lt.mpr hlevel.ge)
          have hinnerKind : inner.kind ≠ .starStar := fun hinnerKind => hkind
            (Token.tier_eq_iff.mp ((Token.tier_eq_of_level_eq hlevel.symm hinnerKind).symm.trans
              (Token.tier_eq_iff.mpr hinnerKind)))
          exact ⟨hleft.tier_le_of_unmixed hgroupedLeft hunmixed hinner hlevel.symm hinnerKind,
            fun h => absurd h hkind⟩
      · obtain ⟨hle, hlt⟩ := hlevelsRight inner hinner
        rcases Nat.lt_or_eq_of_le hle with hcloser | hlevel
        · have htier := Token.tier_lt_of_level_lt hcloser
          exact ⟨Nat.le_of_lt htier, fun _ => htier⟩
        · have hkind : link.operator.kind = .starStar := by
            by_contra hkind
            exact absurd (hlt hkind) (Nat.not_lt.mpr hlevel.ge)
          exact ⟨(Token.tier_eq_of_level_eq hlevel hkind).le, fun h => absurd hkind h⟩
      · exact ihleft hgroupedLeft hunmixed.of_append_left
      · rw [List.append_cons] at hunmixed
        exact ihright hgroupedRight hunmixed.of_append_right

/-- Two members of a list that is split at one of its members both lie to one side
of it, or it is one of them or lies between them. -/
theorem aside_or_across {α : Type} {x y z : α} {before after front between back : List α}
    (h : before ++ z :: after = front ++ x :: (between ++ y :: back)) :
    (∃ others, before = front ++ x :: (between ++ y :: others)) ∨
      (∃ others, after = others ++ x :: (between ++ y :: back)) ∨ (z = x ∧ y ∈ after) ∨
        (x ∈ before ∧ (z = y ∨ z ∈ between)) := by
  rcases List.append_eq_append_iff.mp h with ⟨_ | ⟨w, middle⟩, rfl, hrest⟩ |
    ⟨_ | ⟨w, middle⟩, rfl, hrest⟩
  · obtain ⟨rfl, rfl⟩ := List.cons.inj hrest
    exact .inr (.inr (.inl ⟨rfl, by simp⟩))
  · obtain ⟨rfl, rfl⟩ := List.cons.inj hrest
    exact .inr (.inl ⟨middle, rfl⟩)
  · obtain ⟨rfl, rfl⟩ := List.cons.inj hrest
    exact .inr (.inr (.inl ⟨rfl, by simp⟩))
  · obtain ⟨rfl, hbehind⟩ := List.cons.inj hrest
    rcases List.append_eq_append_iff.mp hbehind with ⟨_ | ⟨v, others⟩, rfl, hlast⟩ |
      ⟨_ | ⟨v, others⟩, rfl, hlast⟩
    · obtain ⟨rfl, rfl⟩ := List.cons.inj hlast
      exact .inr (.inr (.inr ⟨by simp, .inl rfl⟩))
    · obtain ⟨rfl, rfl⟩ := List.cons.inj hlast
      exact .inl ⟨others, rfl⟩
    · obtain ⟨rfl, rfl⟩ := List.cons.inj hlast
      exact .inr (.inr (.inr ⟨by simp, .inl rfl⟩))
    · obtain ⟨rfl, rfl⟩ := List.cons.inj hlast
      exact .inr (.inr (.inr ⟨by simp, .inr (by simp)⟩))

theorem Reads.unmixed_of_conventional (h : tree.Reads first links)
    (hgrouped : tree.GroupedBy Token.level) (htree : tree.GroupedBy Token.tier) :
    Unmixed links := by
  induction h with
  | operand => exact .nil
  | @binary left right first before after link span hleft hright ihleft ihright =>
      obtain ⟨hbefore, hafter⟩ := hgrouped.sides hleft hright
      obtain ⟨htiers, -⟩ := htree.sides hleft hright
      intro front between back x y hsplit hlevel hbetween
      rcases aside_or_across hsplit with ⟨others, rfl⟩ | ⟨others, rfl⟩ | ⟨rfl, hy⟩ |
        ⟨hx, rfl | hlink⟩
      · exact ihleft hgrouped.2.2.1 htree.2.2.1 front between others x y rfl hlevel hbetween
      · exact ihright hgrouped.2.2.2 htree.2.2.2 others between back x y rfl hlevel hbetween
      · by_cases hkind : link.operator.kind = .starStar
        · exact (Token.tier_eq_of_level_eq hlevel hkind).ge
        · exact absurd ((hafter y hy).2 hkind) (Nat.not_lt.mpr hlevel.ge)
      · exact (htiers x hx).1
      · exact absurd (hbetween link hlink) (Nat.not_lt.mpr (hbefore x hx).1)

theorem Reads.conventional_iff (h : tree.Reads first links)
    (hgrouped : tree.GroupedBy Token.level) :
    tree.relabel .unplaced = (conventional first links).relabel .unplaced ↔ Unmixed links := by
  obtain ⟨hreads, hconventional⟩ := conventional_spec first links
  constructor
  · intro heq
    refine h.unmixed_of_conventional hgrouped (h.groupedBy_relabel.mp ?_)
    rw [heq]
    exact hreads.groupedBy_relabel.mpr hconventional
  · intro hunmixed
    exact hreads.unique_conventional hconventional h
      (h.conventional_of_unmixed hgrouped hunmixed)

end Expr

end Mixing

namespace Grammar

variable {input : Input} {power : Power} {before : Progress} {first next : Token}
  {links : List Link} {rest : List Token}

theorem lt_depthOf_of_ahead
    (h : input.ahead before.place = first :: linkTokens links ++ next :: rest) :
    links.length < depthOf input.tokens := by
  have hlength := input.length_ahead_le before.place
  rw [h, List.length_append, List.length_cons, length_linkTokens] at hlength
  rw [depthOf]
  omega

/-- Wherever names with binary operators between them lie ahead, they are read as the
tree that groups by levels.  That is the one tree that groups by the convention
exactly if no two operators of one level are mixed. -/
theorem chain_conventional (hscript : input.grammar = .script) (hfirst : first.kind = .identifier)
    (hahead : input.ahead before.place = first :: linkTokens links ++ next :: rest)
    (hpowers : ∀ link ∈ links, power < link.operator.power) (hstop : StopsAt power next) :
    ∃ tree after,
      knot (fun nt => nt.expr power) input before = .ok tree after ∧
        input.ahead after.place = next :: rest ∧
        tree.Reads first links ∧ tree.GroupedBy Token.level ∧
        (Expr.conventional first links).Reads first links ∧
        (Expr.conventional first links).GroupedBy Token.tier ∧
        (∀ other : Expr, other.Reads first links → other.GroupedBy Token.tier →
          other.relabel .unplaced = (Expr.conventional first links).relabel .unplaced) ∧
        (tree.relabel .unplaced = (Expr.conventional first links).relabel .unplaced ↔
          Unmixed links) := by
  obtain ⟨tree, after, hrun, hafter, hreads, hgrouped, -⟩ :=
    readsChains_nonterminals hscript (depthOf input.tokens) power first links next rest
      (lt_depthOf_of_ahead hahead) hfirst hpowers hstop (List.cons_ne_nil next rest) before hahead
  have hlevels := hreads.groupedBy_level hgrouped
  obtain ⟨hconventionReads, hconvention⟩ := Expr.conventional_spec first links
  exact ⟨tree, after, hrun, hafter, hreads, hlevels, hconventionReads, hconvention,
    fun other hother hothers => hconventionReads.unique_conventional hconvention hother hothers,
    hreads.conventional_iff hlevels⟩

/-- The links of `a || b && c`. -/
def logicalLinks : List Link :=
  [⟨⟨.or, "||", ⟨2, 4⟩, false⟩, ⟨.identifier, "b", ⟨5, 6⟩, false⟩, ⟨_, _, rfl, .inl rfl⟩, rfl⟩,
    ⟨⟨.and, "&&", ⟨7, 9⟩, false⟩, ⟨.identifier, "c", ⟨10, 11⟩, false⟩, ⟨_, _, rfl, .inl rfl⟩,
      rfl⟩]

theorem chain_conventional_of_logical :
    let first : Token := ⟨.identifier, "a", ⟨0, 1⟩, false⟩
    let next : Token := .endAt 11 false
    let input : Input := ⟨.ofList (first :: linkTokens logicalLinks ++ [next]), "or.js", .script⟩
    first.kind = .identifier ∧
      input.ahead 0 = first :: linkTokens logicalLinks ++ [next] ∧
      (∀ link ∈ logicalLinks, .none < link.operator.power) ∧ StopsAt .none next ∧
      ∃ tree after,
        knot (fun nt => nt.expr .none) input .start = .ok tree after ∧
          input.ahead after.place = [next] ∧
          tree.Reads first logicalLinks ∧ tree.GroupedBy Token.level ∧
          (tree.relabel .unplaced =
              (Expr.conventional first logicalLinks).relabel .unplaced ↔
            Unmixed logicalLinks) := by
  have hpowers : ∀ link ∈ logicalLinks, Power.none < link.operator.power :=
    fun link _ => link.isBinary.none_lt
  have hstop : StopsAt .none (.endAt 11 false) := fun _ _ h => nomatch h
  let tokens := ⟨.identifier, "a", ⟨0, 1⟩, false⟩ :: linkTokens logicalLinks ++ [.endAt 11 false]
  obtain ⟨tree, after, hrun, hafter, hreads, hlevels, -, -, -, hiff⟩ :=
    @chain_conventional ⟨.ofList tokens, "or.js", .script⟩ .none .start _ _ _ [] rfl rfl rfl
      hpowers hstop
  exact ⟨rfl, rfl, hpowers, hstop, tree, after, hrun, hafter, hreads, hlevels, hiff⟩

/-- Its operators are of one level, so the tree has the looser one inside. -/
theorem logical_chain_unconventional :
    let first : Token := ⟨.identifier, "a", ⟨0, 1⟩, false⟩
    let tokens := first :: linkTokens logicalLinks ++ [.endAt 11 false]
    Token.ofSource "or.js" "a || b && c" = .ok tokens ∧
      (∀ link ∈ logicalLinks, link.operator.kind ≠ .nullish) ∧
      ∃ tree after,
        knot (fun nt => nt.expr .none) ⟨.ofList tokens, "or.js", .script⟩ .start =
            .ok tree after ∧
          tree.relabel .unplaced ≠
            (Expr.conventional first logicalLinks).relabel .unplaced := by
  refine ⟨?_, by decide, _, _, rfl, fun h => ?_⟩
  · have hlength : "a || b && c".toList.length ≤ 11 := by decide
    rw [← Token.ofSourceWithin_eq hlength]
    rfl
  · exact absurd (congrArg Expr.operator? h) (by decide)

end Grammar

end ScriptKinds
