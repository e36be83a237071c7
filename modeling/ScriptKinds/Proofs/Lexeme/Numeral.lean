import ScriptKinds.Proofs.Lexeme.Steady

namespace ScriptKinds.Lexeme

open Text

/-- Digits with an optional point and fraction, and at least one digit in all. -/
inductive Mantissa : List Char → Prop
  | whole {digits : List Char} (hne : digits ≠ []) (hdigits : ∀ c ∈ digits, isDigit c = true) :
      Mantissa digits
  | fraction {whole fraction : List Char} (hne : whole ≠ [] ∨ fraction ≠ [])
      (hwhole : ∀ c ∈ whole, isDigit c = true) (hfraction : ∀ c ∈ fraction, isDigit c = true) :
      Mantissa (whole ++ '.' :: fraction)

/-- An `e`, an optional sign and at least one digit, or nothing. -/
inductive Exponent : List Char → Prop
  | none : Exponent []
  | some {e : Char} {sign digits : List Char} (he : e = 'e' ∨ e = 'E')
      (hsign : sign = [] ∨ sign = ['+'] ∨ sign = ['-']) (hne : digits ≠ [])
      (hdigits : ∀ c ∈ digits, isDigit c = true) : Exponent (e :: (sign ++ digits))

/-- A whole number as it can be written. -/
inductive Numeral : List Char → Prop
  | hexadecimal {x : Char} {digits : List Char} (hx : x = 'x' ∨ x = 'X') (hne : digits ≠ [])
      (hdigits : ∀ c ∈ digits, isHexDigit c = true) : Numeral ('0' :: x :: digits)
  | decimal {mantissa exponent : List Char} (hmantissa : Mantissa mantissa)
      (hexponent : Exponent exponent) : Numeral (mantissa ++ exponent)

/-! ### Numbers are read as far as they reach -/

theorem runLength_append {inClass : Char → Bool} {cs : List Char}
    (h : ∀ c ∈ cs, inClass c = true) (rest : List Char) :
    runLength inClass (cs ++ rest) = cs.length + runLength inClass rest := by
  rw [runLength, List.takeWhile_append_of_pos h, List.length_append]
  rfl

theorem runLength_of_head {inClass : Char → Bool} {cs : List Char}
    (h : ∀ c ∈ cs.head?, inClass c = false) : runLength inClass cs = 0 := by
  cases cs with
  | nil => rfl
  | cons c cs => simp [runLength, h c rfl]

theorem length_add_length_pos {xs ys : List Char} (h : xs ≠ [] ∨ ys ≠ []) :
    0 < xs.length + ys.length := by
  rw [← List.length_append, List.length_pos_iff, Ne, List.append_eq_nil_iff, not_and_or]
  exact h

namespace Mantissa

variable {mantissa : List Char}

theorem ne_nil (h : Mantissa mantissa) : mantissa ≠ [] := by
  cases h with
  | whole hne => exact hne
  | fraction => simp

theorem mantissaLength_point {whole : List Char} (hwhole : ∀ c ∈ whole, isDigit c = true)
    (rest : List Char) :
    mantissaLength (whole ++ '.' :: rest) =
      if whole.length + runLength isDigit rest = 0 then 0
      else whole.length + 1 + runLength isDigit rest := by
  have hrun : runLength isDigit (whole ++ '.' :: rest) = whole.length := by
    rw [runLength_append hwhole, runLength_of_head (by simp [isDigit]), Nat.add_zero]
  rw [mantissaLength_eq, hrun, List.drop_left, mantissaFrom_point]

theorem length_le (h : Mantissa mantissa) (rest : List Char) :
    mantissa.length ≤ mantissaLength (mantissa ++ rest) := by
  cases h with
  | whole _ hdigits =>
      rw [mantissaLength_eq]
      refine Nat.le_trans ?_ (le_mantissaFrom _ _)
      rw [runLength_append hdigits]
      exact Nat.le_add_right _ _
  | @fraction whole fraction hne hwhole hfraction =>
      have hdigits := length_add_length_pos hne
      rw [List.append_assoc, List.cons_append, mantissaLength_point hwhole,
        runLength_append hfraction, if_neg (by omega), List.length_append, List.length_cons]
      omega

theorem length_eq (h : Mantissa mantissa) {rest : List Char}
    (hrest : ∀ c ∈ rest.head?, isDigit c = false ∧ c ≠ '.') :
    mantissaLength (mantissa ++ rest) = mantissa.length := by
  have hstop : runLength isDigit rest = 0 := runLength_of_head fun c hc => (hrest c hc).1
  cases h with
  | whole _ hdigits =>
      have hpoint : rest.head? ≠ some '.' := fun hhead => (hrest '.' hhead).2 rfl
      rw [mantissaLength_eq, runLength_append hdigits, hstop, Nat.add_zero, List.drop_left,
        mantissaFrom_of_ne _ hpoint]
  | @fraction whole fraction hne hwhole hfraction =>
      have hdigits := length_add_length_pos hne
      rw [List.append_assoc, List.cons_append, mantissaLength_point hwhole,
        runLength_append hfraction, hstop, if_neg (by omega), List.length_append, List.length_cons]
      omega

end Mantissa

namespace Exponent

variable {exponent : List Char}

theorem head (h : Exponent exponent) {c : Char} (hc : c ∈ exponent.head?) :
    isDigit c = false ∧ c ≠ '.' := by
  cases h with
  | none => cases hc
  | some he =>
      obtain rfl := Option.mem_some_iff.mp hc
      rcases he with rfl | rfl <;> decide

theorem length_le (h : Exponent exponent) (rest : List Char) :
    exponent.length ≤ exponentLength (exponent ++ rest) := by
  cases h with
  | none => exact Nat.zero_le _
  | @some e sign digits he hsign hne hdigits =>
      have hmark : signLength (sign ++ (digits ++ rest)) = sign.length := by
        rcases hsign with rfl | rfl | rfl
        · obtain ⟨d, digits, rfl⟩ := List.exists_cons_of_ne_nil hne
          have hd := hdigits d List.mem_cons_self
          have hsigns : ¬(d = '+' ∨ d = '-') := by
            rintro (rfl | rfl) <;> exact absurd hd (by decide)
          simpa [signLength] using hsigns
        · rfl
        · rfl
      have hlength := List.length_pos_iff.mpr hne
      rw [List.cons_append, List.append_assoc, exponentLength_cons, hmark, List.drop_left,
        runLength_append hdigits, if_pos ⟨he, by omega⟩, List.length_cons, List.length_append]
      omega

end Exponent

theorem length_le_decimalLength {mantissa exponent : List Char} (hmantissa : Mantissa mantissa)
    (hexponent : Exponent exponent) (rest : List Char) :
    (mantissa ++ exponent).length ≤ decimalLength (mantissa ++ exponent ++ rest) := by
  have hpos := List.length_pos_iff.mpr hmantissa.ne_nil
  rw [List.append_assoc, List.length_append, decimalLength_eq]
  cases exponent with
  | nil =>
      have hle := hmantissa.length_le rest
      rw [List.nil_append, List.length_nil, if_neg (by omega)]
      omega
  | cons e others =>
      have hlength : mantissaLength (mantissa ++ (e :: others ++ rest)) = mantissa.length :=
        hmantissa.length_eq fun c hc => hexponent.head hc
      rw [hlength, if_neg (by omega), List.drop_left, Nat.add_le_add_iff_left]
      exact hexponent.length_le rest

/-- Where a number can be read as a hexadecimal one, its decimal reading ends with the
zero. -/
theorem decimalLength_le_hexLength {cs : List Char} (h : hexLength cs ≠ 0) :
    decimalLength cs ≤ hexLength cs := by
  rcases cs with _ | ⟨c, _ | ⟨x, cs⟩⟩
  · exact absurd rfl h
  · simp [hexLength] at h
  · rw [hexLength_cons_cons] at h ⊢
    split
    · rename_i hparts
      obtain ⟨rfl, hx, -⟩ := hparts
      have hzero : decimalLength ('0' :: x :: cs) = 1 := by
        rcases hx with rfl | rfl <;> rfl
      omega
    · rename_i hparts
      exact absurd (if_neg hparts) h

theorem Numeral.length_le {numeral : List Char} (h : Numeral numeral) (rest : List Char) :
    numeral.length ≤ numberLength (numeral ++ rest) := by
  rw [numberLength_eq]
  cases h with
  | @hexadecimal x digits hx hne hdigits =>
      have hpos := List.length_pos_iff.mpr hne
      have hlength : hexLength ('0' :: x :: digits ++ rest) =
          digits.length + runLength isHexDigit rest + 2 := by
        rw [List.cons_append, List.cons_append, hexLength_cons_cons, runLength_append hdigits,
          if_pos ⟨rfl, hx, by omega⟩]
      rw [hlength, if_neg (by omega), List.length_cons, List.length_cons]
      omega
  | decimal hmantissa hexponent =>
      have hle := length_le_decimalLength hmantissa hexponent rest
      split
      · exact hle
      · rename_i hhex
        exact Nat.le_trans hle (decimalLength_le_hexLength hhex)

/-! ### What is read is a number -/

theorem forall_take_runLength (inClass : Char → Bool) (cs : List Char) :
    ∀ c ∈ cs.take (runLength inClass cs), inClass c = true := by
  rw [(Piece.takeWhile_run inClass cs).1]
  exact fun c hc => List.mem_takeWhile_imp hc

theorem take_runLength_ne_nil {inClass : Char → Bool} {cs : List Char}
    (h : runLength inClass cs ≠ 0) : cs.take (runLength inClass cs) ≠ [] := by
  rw [(Piece.takeWhile_run inClass cs).1]
  exact fun hnil => h (congrArg List.length hnil)

theorem mantissa_take {cs : List Char} (h : mantissaLength cs ≠ 0) :
    Mantissa (cs.take (mantissaLength cs)) := by
  have hwhole := forall_take_runLength isDigit cs
  rw [mantissaLength_eq] at h ⊢
  by_cases hpoint : ∃ rest, cs.drop (runLength isDigit cs) = '.' :: rest
  · obtain ⟨rest, hrest⟩ := hpoint
    rw [hrest, mantissaFrom_point] at h ⊢
    have hsome : runLength isDigit cs + runLength isDigit rest ≠ 0 := fun hzero => h (if_pos hzero)
    rw [if_neg hsome, Nat.add_assoc, Nat.add_comm 1, List.take_add, hrest, List.take_succ_cons]
    refine .fraction ?_ hwhole (forall_take_runLength isDigit rest)
    by_cases hfraction : runLength isDigit rest = 0
    · exact .inl (take_runLength_ne_nil (by omega))
    · exact .inr (take_runLength_ne_nil hfraction)
  · have hhead : (cs.drop (runLength isDigit cs)).head? ≠ some '.' := by
      intro hhead
      exact hpoint (List.head?_eq_some_iff.mp hhead)
    rw [mantissaFrom_of_ne _ hhead] at h ⊢
    exact .whole (take_runLength_ne_nil h) hwhole

theorem exponent_take (cs : List Char) : Exponent (cs.take (exponentLength cs)) := by
  cases cs with
  | nil => exact .none
  | cons e cs =>
      rw [exponentLength_cons]
      split
      · rename_i hparts
        have hsign : cs.take (signLength cs) = [] ∨ cs.take (signLength cs) = ['+'] ∨
            cs.take (signLength cs) = ['-'] := by
          cases cs with
          | nil => exact .inl rfl
          | cons c cs =>
              rw [signLength]
              split
              · rename_i hc
                rw [Bool.or_eq_true, beq_iff_eq, beq_iff_eq] at hc
                rcases hc with rfl | rfl <;> simp
              · exact .inl rfl
        rw [Nat.add_assoc, Nat.add_comm 1, List.take_succ_cons, List.take_add]
        exact .some hparts.1 hsign (take_runLength_ne_nil (Nat.ne_of_gt hparts.2))
          (forall_take_runLength isDigit _)
      · exact .none

theorem numeral_take {cs : List Char} (h : numberLength cs ≠ 0) :
    Numeral (cs.take (numberLength cs)) := by
  rw [numberLength_eq] at h ⊢
  by_cases hhex : hexLength cs = 0
  · rw [if_pos hhex, decimalLength_eq] at h ⊢
    have hmantissa : mantissaLength cs ≠ 0 := fun hzero => h (if_pos hzero)
    rw [if_neg hmantissa, List.take_add]
    exact .decimal (mantissa_take hmantissa) (exponent_take _)
  · rw [if_neg hhex]
    rcases cs with _ | ⟨c, _ | ⟨x, cs⟩⟩
    · exact absurd rfl hhex
    · simp [hexLength] at hhex
    · rw [hexLength_cons_cons] at hhex ⊢
      split
      · rename_i hparts
        obtain ⟨rfl, hx, hdigits⟩ := hparts
        exact .hexadecimal hx (take_runLength_ne_nil (Nat.ne_of_gt hdigits))
          (forall_take_runLength isHexDigit cs)
      · rename_i hparts
        exact absurd (if_neg hparts) hhex

theorem length_le_numberLength {cs numeral : List Char} (h : Numeral numeral)
    (hstarts : numeral <+: cs) : numeral.length ≤ numberLength cs := by
  obtain ⟨rest, rfl⟩ := hstarts
  exact h.length_le rest

end ScriptKinds.Lexeme
