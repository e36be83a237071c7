import Mathlib.Data.List.Basic
import Mathlib.Data.List.TakeWhile
import ScriptKinds.Proofs.Source.Line
import ScriptKinds.Proofs.Token.Layout
import ScriptKinds.Source.Diagnostic

namespace ScriptKinds

namespace Text

/-! ### Bytes and characters -/

theorem byteLength_eq_zero {cs : List Char} : byteLength cs = 0 ↔ cs = [] := by
  constructor
  · intro h
    have hlength := length_le_byteLength cs
    exact List.eq_nil_of_length_eq_zero (by omega)
  · rintro rfl
    rfl

theorem byteLength_eq_length_iff {cs : List Char} :
    byteLength cs = cs.length ↔ ∀ c ∈ cs, c.utf8Size = 1 := by
  induction cs with
  | nil => simp
  | cons c cs ih =>
      have hsize := c.utf8Size_pos
      have hlength := length_le_byteLength cs
      rw [List.forall_mem_cons, ← ih, byteLength_cons, List.length_cons]
      omega

theorem exists_between {xs ys zs ws : List Char} (h : xs ++ ys = zs ++ ws)
    (hle : byteLength xs ≤ byteLength zs) : ∃ between, zs = xs ++ between ∧ ys = between ++ ws := by
  rcases List.append_eq_append_iff.mp h with hbetween | ⟨between, rfl, rfl⟩
  · exact hbetween
  · rw [byteLength_append] at hle
    obtain rfl : between = [] := byteLength_eq_zero.mp (by omega)
    exact ⟨[], by simp, by simp⟩

theorem Holds.exists_inside {content head tail : List Char} {offset : Nat} {found : LinePosition}
    {before after : List (List Char)} (h : Holds content offset found before after)
    (hcontent : content = head ++ tail) (hhead : byteLength head = offset) :
    ∃ inside behind, found.line = inside ++ behind ∧ byteLength inside = found.offset := by
  have hcut : before.flatten ++ (found.line ++ after.flatten) = head ++ tail := by
    rw [← hcontent, ← flatten_lines content, h.cut.lines_eq]
    simp
  have hcounted := h.counted
  obtain ⟨inside, rfl, hline⟩ := exists_between hcut (by omega)
  rw [byteLength_append] at hhead
  have hfits : found.offset ≤ byteLength found.line := by
    rcases Nat.lt_trichotomy offset (byteLength content) with hlt | heq | hgt
    · exact Nat.le_of_lt (h.inside hlt)
    · exact Nat.le_of_eq (h.ends heq).2
    · rw [hcontent, byteLength_append, byteLength_append] at hgt
      omega
  obtain ⟨behind, hbehind, -⟩ := exists_between hline.symm (by omega)
  exact ⟨inside, behind, hbehind, by omega⟩

theorem trimEnd_append_cons {c : Char} (hc : isBlank c = false) (cs ds : List Char) :
    trimEnd (cs ++ c :: ds) = cs ++ c :: trimEnd ds := by
  have hstop : (c :: cs.reverse).dropWhile isBlank = c :: cs.reverse := by
    rw [List.dropWhile_cons, hc]
    rfl
  rw [trimEnd, trimEnd, List.reverse_append, List.reverse_cons, List.append_assoc,
    List.singleton_append, List.dropWhile_append, hstop]
  split
  · rename_i hempty
    simp [List.isEmpty_iff.mp hempty]
  · simp

end Text

namespace Diagnostic

open Text

/-! ### The rows of an excerpt -/

/-- The number of characters before the text of a line, and before the dashes below it. -/
def marginWidth (number : Nat) : Nat :=
  (toString number).length + 3

/-- The column of the caret in its row, counted from zero. -/
def caretPlace (row : String) : Nat :=
  row.toList.idxOf '^'

theorem caretPlace_eq (number dashes : Nat) :
    caretPlace (margin number ++ " " ++ String.ofList (List.replicate dashes '-') ++ "^") =
      marginWidth number + dashes := by
  have hrow : (margin number ++ " " ++ String.ofList (List.replicate dashes '-') ++ "^").toList =
      (List.replicate ((toString number).length + 1) ' ' ++ ['|', ' '] ++
        List.replicate dashes '-') ++ ['^'] := by
    simp [margin]
  have hbefore : '^' ∉ List.replicate ((toString number).length + 1) ' ' ++ ['|', ' '] ++
      List.replicate dashes '-' := by
    simp
  rw [caretPlace, hrow, List.idxOf_append_of_notMem hbefore, List.idxOf_cons_self]
  simp [marginWidth]
  omega

theorem getElem?_row (number : Nat) (shown : List Char) (place : Nat) :
    (toString number ++ " | " ++ String.ofList shown).toList[marginWidth number + place]? =
      shown[place]? := by
  have hrow : (toString number ++ " | " ++ String.ofList shown).toList =
      ((toString number).toList ++ [' ', '|', ' ']) ++ shown := by
    simp
  have hwidth : ((toString number).toList ++ [' ', '|', ' ']).length = marginWidth number := by
    rw [List.length_append, String.length_toList]
    rfl
  rw [hrow, ← hwidth, List.getElem?_append_right (Nat.le_add_right _ _), Nat.add_sub_cancel_left]

theorem byteLength_indentation (line : List Char) :
    byteLength (indentation line) = (indentation line).length := by
  rw [byteLength_eq_length_iff]
  intro c hc
  have hblank := List.mem_takeWhile_imp hc
  rw [Bool.or_eq_true, beq_iff_eq, beq_iff_eq] at hblank
  rcases hblank with rfl | rfl <;> rfl

/-- The rows that show a line with a fault behind some text of it. -/
structure Points (number : Nat) (text behind : List Char) (row caretRow : String) : Prop where
  line : row = toString number ++ " | " ++ String.ofList (trimEnd (text ++ behind))
  dashes : caretRow =
    margin number ++ " " ++ String.ofList (List.replicate (byteLength text) '-') ++ "^"
  /-- The character at the fault is shown as many columns behind the margin as there are
  characters in front of it.  Only blanks at the end of the line are not shown. -/
  shown : ∀ c ∈ behind.head?, isBlank c = false →
    row.toList[marginWidth number + text.length]? = some c
  /-- The caret stands as many columns behind the margin as there are bytes in front of
  the fault. -/
  caret : caretPlace caretRow = marginWidth number + byteLength text
  /-- So it stands below the fault exactly if these bytes are characters. -/
  below_iff : caretPlace caretRow = marginWidth number + text.length ↔ ∀ c ∈ text, c.utf8Size = 1

section Fault

variable {found : LinePosition} {text behind : List Char}

theorem points_excerpt (hline : found.line = indentation found.line ++ text ++ behind)
    (htext : byteLength (indentation found.line ++ text) = found.offset) :
    ∃ row caretRow, excerpt found = [margin found.number, row, caretRow] ∧
      Points found.number text behind row caretRow := by
  have hplace : caretColumn found = byteLength text := by
    rw [caretColumn, ← htext, byteLength_append, byteLength_indentation, Nat.add_sub_cancel_left]
  have hshown : shownLine found.line = trimEnd (text ++ behind) := by
    have hdrop := congrArg (List.drop (indentation found.line).length) hline
    rw [List.append_assoc, List.drop_left] at hdrop
    rw [shownLine, hdrop]
  refine ⟨_, _, rfl, ?_, ?_, ?_, ?_, ?_⟩
  · rw [hshown]
  · rw [hplace]
  · intro c hc hblank
    obtain ⟨rest, rfl⟩ := List.head?_eq_some_iff.mp hc
    rw [getElem?_row, hshown, trimEnd_append_cons hblank, List.getElem?_append_right (Nat.le_refl _),
      Nat.sub_self]
    rfl
  · rw [caretPlace_eq, hplace]
  · rw [caretPlace_eq, hplace, Nat.add_left_cancel_iff, byteLength_eq_length_iff]

end Fault

/-- A fault between two characters of a text is shown in its line, if the text has any
lines.  Unless it lies in the indentation, the caret is moved by the bytes between the
indentation and the fault, so it stands below the fault if and only if they are as many
characters. -/
theorem caret_of_fault {fault : Fault} {content path : String} {head tail : List Char}
    (hcontent : content.toList = head ++ tail)
    (hoffset : byteLength head = fault.position.offset) :
    (content = "" ∧ lines fault content path = [headline fault.cause, "-> " ++ path]) ∨
    ∃ found before after, Holds content.toList fault.position.offset found before after ∧
      ((indentation found.line).length ≤ found.offset →
        ∃ text behind row caretRow, found.line = indentation found.line ++ text ++ behind ∧
          byteLength (indentation found.line ++ text) = found.offset ∧
          lines fault content path =
            [headline fault.cause, "-> " ++ path, margin found.number, row, caretRow] ∧
          Points found.number text behind row caretRow) := by
  by_cases hempty : content = ""
  · subst hempty
    exact .inl ⟨rfl, rfl⟩
  right
  have hle : fault.position.offset ≤ byteLength content.toList := by
    rw [hcontent, byteLength_append, hoffset]
    exact Nat.le_add_right _ _
  have hsome : (lineAt? content.toList fault.position.offset).isSome :=
    isSome_lineAt?.mpr ⟨fun hnil => hempty (String.toList_eq_nil_iff.mp hnil), hle⟩
  obtain ⟨found, hfound⟩ := Option.isSome_iff_exists.mp hsome
  obtain ⟨-, before, after, hholds⟩ := lineAt?_eq_some_iff.mp hfound
  refine ⟨found, before, after, hholds, fun hindented => ?_⟩
  obtain ⟨inside, behind, hline, hinside⟩ := hholds.exists_inside hcontent hoffset
  -- The line is cut behind its indentation, and again at the fault.
  have hcut : indentation found.line ++ found.line.drop (indentation found.line).length =
      inside ++ behind := by
    rw [← hline]
    exact List.prefix_iff_eq_append.mp (List.takeWhile_prefix _)
  rw [← byteLength_indentation, ← hinside] at hindented
  obtain ⟨text, rfl, -⟩ := exists_between hcut hindented
  obtain ⟨row, caretRow, hrows, hpoints⟩ := points_excerpt hline hinside
  refine ⟨text, behind, row, caretRow, hline, hinside, ?_, hpoints⟩
  rw [lines, hfound]
  exact congrArg (fun rows => headline fault.cause :: ("-> " ++ path) :: rows) hrows

/-- A fault on an indented line, with a character of two bytes on the line before. -/
theorem caret_below_hash :
    lines ⟨.unrecognised "#", 15, "main.js"⟩ "// é\n\tvar a = #;" "main.js" =
        ["Error: UnrecognisedToken", "-> main.js", "  |", "2 | var a = #;", "  | --------^"] ∧
      "// é\n\tvar a = #;".toList = "// é\n\tvar a = ".toList ++ "#;".toList ∧
      byteLength "// é\n\tvar a = ".toList = 15 ∧
      ∃ found before after, Holds "// é\n\tvar a = #;".toList 15 found before after ∧
        ((indentation found.line).length ≤ found.offset →
          ∃ text behind row caretRow, found.line = indentation found.line ++ text ++ behind ∧
            byteLength (indentation found.line ++ text) = found.offset ∧
            lines ⟨.unrecognised "#", 15, "main.js"⟩ "// é\n\tvar a = #;" "main.js" =
              [headline (.unrecognised "#"), "-> " ++ "main.js", margin found.number, row,
                caretRow] ∧
            Points found.number text behind row caretRow) := by
  have hcontent : "// é\n\tvar a = #;".toList = "// é\n\tvar a = ".toList ++ "#;".toList := rfl
  have hoffset : byteLength "// é\n\tvar a = ".toList =
      (⟨.unrecognised "#", 15, "main.js"⟩ : Fault).position.offset := rfl
  exact ⟨rfl, hcontent, hoffset,
    (caret_of_fault hcontent hoffset).resolve_left fun h => absurd h.1 (by decide)⟩

/-- A fault behind a character of two bytes on its line. -/
theorem caret_beside_hash :
    Token.ofSource "main.js" "\"é\" #" = .error ⟨.unrecognised "#", 5, "main.js"⟩ ∧
      byteLength "\"é\" ".toList = 5 ∧
      lines ⟨.unrecognised "#", 5, "main.js"⟩ "\"é\" #" "main.js" =
        ["Error: UnrecognisedToken", "-> main.js", "  |", "1 | \"é\" #", "  | -----^"] ∧
      "1 | \"é\" #".toList[marginWidth 1 + "\"é\" ".toList.length]? = some '#' ∧
      caretPlace "  | -----^" ≠ marginWidth 1 + "\"é\" ".toList.length := by
  refine ⟨?_, rfl, rfl, rfl, by decide⟩
  have hlength : "\"é\" #".toList.length ≤ 5 := by decide
  rw [← Token.ofSourceWithin_eq hlength]
  rfl

end Diagnostic

end ScriptKinds
