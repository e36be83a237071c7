import ScriptKinds.Text.Utf8

namespace ScriptKinds.Text

/-- The lines of a text, each with the line feed that ends it. -/
def lines : List Char → List (List Char)
  | [] => []
  | c :: cs =>
      if c = '\n' then [c] :: lines cs
      else
        match lines cs with
        | [] => [[c]]
        | line :: others => (c :: line) :: others

/-- A line with its number, counted from one, and a byte offset in it. -/
structure LinePosition where
  number : Nat
  line : List Char
  offset : Nat
deriving DecidableEq, Repr

/-- The line that holds a byte offset, counted from the start of the lines.  An
offset just behind the last line is held by that line. -/
def locate (number : Nat) (offset : Nat) : List (List Char) → Option LinePosition
  | [] => none
  | [line] => if offset ≤ byteLength line then some ⟨number, line, offset⟩ else none
  | line :: next :: others =>
      if offset < byteLength line then some ⟨number, line, offset⟩
      else locate (number + 1) (offset - byteLength line) (next :: others)

/-- The line of an offset, with its number and what precedes the offset in it. -/
def lineAt? (content : List Char) (offset : Nat) : Option LinePosition :=
  locate 1 offset (lines content)

theorem flatten_lines (cs : List Char) : (lines cs).flatten = cs := by
  induction cs with
  | nil => rfl
  | cons c cs ih =>
      by_cases hc : c = '\n'
      · simp [lines, hc, ih]
      · cases hl : lines cs with
        | nil =>
            rw [hl] at ih
            simp [lines, hc, ← ih]
        | cons line others =>
            rw [hl] at ih
            simp only [lines, hc, hl, if_false, List.flatten_cons, List.cons_append]
            rw [← List.flatten_cons, ih]

end ScriptKinds.Text
