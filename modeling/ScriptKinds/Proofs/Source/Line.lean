import ScriptKinds.Source.Line

namespace ScriptKinds.Text

/-! ### Lines -/

/-- Lined text pieces: the text is cut into the pieces behind each of its line
feeds. -/
inductive Lined : List Char → List (List Char) → Prop
  | nil : Lined [] []
  | last {line : List Char} (hne : line ≠ []) (hfree : '\n' ∉ line) : Lined line [line]
  | feed {line rest : List Char} {others : List (List Char)} (hfree : '\n' ∉ line)
      (h : Lined rest others) : Lined (line ++ '\n' :: rest) ((line ++ ['\n']) :: others)

theorem lined_lines (cs : List Char) : Lined cs (lines cs) := by
  induction cs with
  | nil => exact .nil
  | cons c cs ih =>
      by_cases hc : c = '\n'
      · subst hc
        rw [lines, if_pos rfl]
        exact @Lined.feed [] _ _ List.not_mem_nil ih
      · rw [lines, if_neg hc]
        generalize lines cs = pieces at ih
        have hfree {line : List Char} (hline : '\n' ∉ line) : '\n' ∉ c :: line := by
          rw [List.mem_cons, not_or]
          exact ⟨Ne.symm hc, hline⟩
        cases ih with
        | nil => exact .last (List.cons_ne_nil _ _) (hfree List.not_mem_nil)
        | last _ hline => exact .last (List.cons_ne_nil _ _) (hfree hline)
        | @feed line _ _ hline hrest => exact @Lined.feed (c :: line) _ _ (hfree hline) hrest

theorem lines_append_feed {line : List Char} (hfree : '\n' ∉ line) (rest : List Char) :
    lines (line ++ '\n' :: rest) = (line ++ ['\n']) :: lines rest := by
  induction line with
  | nil => rw [List.nil_append, lines, if_pos rfl, List.nil_append]
  | cons c line ih =>
      rw [List.mem_cons, not_or] at hfree
      rw [List.cons_append, lines, if_neg (Ne.symm hfree.1), ih hfree.2, List.cons_append]

theorem lines_of_not_mem {line : List Char} (hne : line ≠ []) (hfree : '\n' ∉ line) :
    lines line = [line] := by
  induction line with
  | nil => exact absurd rfl hne
  | cons c line ih =>
      rw [List.mem_cons, not_or] at hfree
      rw [lines, if_neg (Ne.symm hfree.1)]
      cases line with
      | nil => rfl
      | cons d line => rw [ih (List.cons_ne_nil _ _) hfree.2]

theorem Lined.lines_eq {cs : List Char} {pieces : List (List Char)} (h : Lined cs pieces) :
    lines cs = pieces := by
  induction h with
  | nil => rfl
  | last hne hfree => exact lines_of_not_mem hne hfree
  | feed hfree _ ih => rw [lines_append_feed hfree, ih]

/-! ### Offsets -/

/-- The line at which an offset is found, with the pieces before and after it.  The
first of all pieces has a number, and an offset behind a piece lies on the next one. -/
structure Found (number offset : Nat) (found : LinePosition) (before after : List (List Char)) :
    Prop where
  numbered : found.number = number + before.length
  counted : byteLength before.flatten + found.offset = offset
  inside : found.offset < byteLength found.line ∨
    after = [] ∧ found.offset = byteLength found.line

theorem found_nil_iff {number offset : Nat} {line : List Char} {found : LinePosition}
    {after : List (List Char)} :
    found.line = line ∧ Found number offset found [] after ↔
      ⟨number, line, offset⟩ = found ∧
        (offset < byteLength line ∨ after = [] ∧ offset = byteLength line) := by
  constructor
  · rintro ⟨rfl, hnumber, hoffset, hinside⟩
    obtain rfl : found.offset = offset := by simpa using hoffset
    obtain rfl : found.number = number := hnumber
    exact ⟨rfl, hinside⟩
  · rintro ⟨rfl, hinside⟩
    exact ⟨rfl, rfl, by simp, hinside⟩

theorem found_cons_iff {number offset : Nat} {line : List Char} {found : LinePosition}
    {before after : List (List Char)} :
    Found number offset found (line :: before) after ↔
      byteLength line ≤ offset ∧ Found (number + 1) (offset - byteLength line) found before after := by
  constructor
  · rintro ⟨hnumber, hoffset, hinside⟩
    rw [List.flatten_cons, byteLength_append] at hoffset
    rw [List.length_cons] at hnumber
    exact ⟨by omega, by omega, by omega, hinside⟩
  · rintro ⟨hle, hnumber, hoffset, hinside⟩
    refine ⟨?_, ?_, hinside⟩
    · rw [List.length_cons]
      omega
    · rw [List.flatten_cons, byteLength_append]
      omega

theorem locate_eq_some_iff {number offset : Nat} {pieces : List (List Char)}
    {found : LinePosition} :
    locate number offset pieces = some found ↔
      ∃ before after, pieces = before ++ found.line :: after ∧
        Found number offset found before after := by
  induction pieces generalizing number offset with
  | nil => simp [locate]
  | cons line others ih =>
      -- The line is the first piece, or it is found among the others.
      have hsplit : (∃ before after, line :: others = before ++ found.line :: after ∧
            Found number offset found before after) ↔
          (found.line = line ∧ Found number offset found [] others) ∨
            byteLength line ≤ offset ∧
              locate (number + 1) (offset - byteLength line) others = some found := by
        rw [ih]
        constructor
        · rintro ⟨before, after, hpieces, hfound⟩
          cases before with
          | nil =>
              obtain ⟨hline, rfl⟩ := List.cons.inj hpieces
              exact .inl ⟨hline.symm, hfound⟩
          | cons first before =>
              obtain ⟨rfl, hothers⟩ := List.cons.inj hpieces
              obtain ⟨hle, hfound⟩ := found_cons_iff.mp hfound
              exact .inr ⟨hle, before, after, hothers, hfound⟩
        · rintro (⟨rfl, hfound⟩ | ⟨hle, before, after, rfl, hfound⟩)
          · exact ⟨[], others, rfl, hfound⟩
          · exact ⟨line :: before, after, rfl, found_cons_iff.mpr ⟨hle, hfound⟩⟩
      rw [hsplit, found_nil_iff]
      cases others with
      | nil =>
          have hend : offset ≤ byteLength line ↔
              offset < byteLength line ∨ offset = byteLength line := Nat.le_iff_lt_or_eq
          rw [locate, locate]
          split
          · rename_i hle
            simp [hend.mp hle]
          · rename_i hle
            simp [mt hend.mpr hle]
      | cons next others =>
          rw [locate]
          split
          · rename_i hlt
            simp [hlt, Nat.not_le.mpr hlt]
          · rename_i hlt
            simp [hlt, Nat.le_of_not_lt hlt]

/-- The line of a text that holds a byte offset, with the lines before and after it. -/
structure Holds (content : List Char) (offset : Nat) (found : LinePosition)
    (before after : List (List Char)) : Prop where
  cut : Lined content (before ++ found.line :: after)
  numbered : found.number = before.length + 1
  counted : byteLength before.flatten + found.offset = offset
  inside : offset < byteLength content → found.offset < byteLength found.line
  ends : offset = byteLength content → after = [] ∧ found.offset = byteLength found.line

theorem isSome_locate (number offset : Nat) (lines : List (List Char)) :
    (locate number offset lines).isSome ↔ lines ≠ [] ∧ offset ≤ byteLength lines.flatten := by
  induction lines generalizing number offset with
  | nil => simp [locate]
  | cons line others ih =>
      cases others with
      | nil =>
          rw [locate]
          split <;> simp_all
      | cons next others =>
          rw [locate, List.flatten_cons, byteLength_append]
          split
          · simp only [Option.isSome_some, true_iff]
            exact ⟨List.cons_ne_nil _ _, by omega⟩
          · rw [ih]
            simp only [ne_eq, reduceCtorEq, not_false_eq_true, true_and]
            omega

theorem lines_eq_nil {cs : List Char} : lines cs = [] ↔ cs = [] := by
  constructor
  · intro h
    rw [← flatten_lines cs, h, List.flatten_nil]
  · rintro rfl
    rfl

theorem isSome_lineAt? {content : List Char} {offset : Nat} :
    (lineAt? content offset).isSome ↔ content ≠ [] ∧ offset ≤ byteLength content := by
  rw [lineAt?, isSome_locate, flatten_lines, ne_eq, lines_eq_nil]

theorem lineAt?_eq_some_iff {content : List Char} {offset : Nat} {found : LinePosition} :
    lineAt? content offset = some found ↔
      offset ≤ byteLength content ∧ ∃ before after, Holds content offset found before after := by
  rw [lineAt?, locate_eq_some_iff]
  constructor
  · rintro ⟨before, after, hlines, hnumber, hoffset, hinside⟩
    have hlength : byteLength content = byteLength before.flatten + byteLength found.line +
        byteLength after.flatten := by
      rw [← flatten_lines content, hlines]
      simp [Nat.add_assoc]
    have hend : after = [] → byteLength after.flatten = 0 := fun h => by rw [h]; rfl
    refine ⟨by omega, before, after, ⟨hlines ▸ lined_lines content, by omega, hoffset, ?_, ?_⟩⟩
    · intro hlt
      rcases hinside with hinside | ⟨hafter, -⟩
      · exact hinside
      · have := hend hafter
        omega
    · intro hwhole
      rcases hinside with hinside | hafter
      · omega
      · exact hafter
  · rintro ⟨hle, before, after, hholds⟩
    refine ⟨before, after, hholds.cut.lines_eq, ?_, hholds.counted, ?_⟩
    · rw [hholds.numbered, Nat.add_comm]
    · rcases Nat.lt_or_eq_of_le hle with hlt | hwhole
      · exact .inl (hholds.inside hlt)
      · exact .inr (hholds.ends hwhole)

/-- Each offset up to the end of a text that is not empty lies on one line: it is
counted from the start of that line, and the line from the start of the text.  Only
the offset behind the last character does not stand in front of a character of its
line, which is the last one. -/
theorem lineAt?_exact (content : List Char) (offset : Nat) :
    (lineAt? content offset = none ↔ byteLength content < offset ∨ content = []) ∧
      ∀ found, lineAt? content offset = some found ↔
        offset ≤ byteLength content ∧ ∃ before after, Holds content offset found before after := by
  refine ⟨?_, fun found => lineAt?_eq_some_iff⟩
  rw [← Option.not_isSome_iff_eq_none, isSome_lineAt?, Classical.not_and_iff_not_or_not,
    Classical.not_not, Nat.not_le, or_comm]

/-- An empty line holds its line feed, and the last line holds the offset behind its own. -/
example : [2, 5].map (lineAt? "a\n\nb\n".toList) =
    [some ⟨2, ['\n'], 0⟩, some ⟨3, ['b', '\n'], 2⟩] := rfl

end ScriptKinds.Text
