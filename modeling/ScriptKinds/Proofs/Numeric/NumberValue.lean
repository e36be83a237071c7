import ScriptKinds.Numeric.Literal
import ScriptKinds.Proofs.Lexeme.Steady

/-!
The values of number lexemes.

The syntax of numbers is written down twice: once for how far a number reaches,
and once for what its value is.  They agree but for the hexadecimal integers that do
not fit into sixty-four bits with a sign, which have no value.
-/

namespace ScriptKinds

open Text Lexeme

namespace Text

theorem exists_hexValue?_of_isDigit {c : Char} (h : isDigit c = true) :
    ∃ d, hexValue? c = some d ∧ d < 10 := by
  refine ⟨c.val.toNat - '0'.val.toNat, by rw [hexValue?, if_pos h], ?_⟩
  simp only [isDigit, Bool.and_eq_true, decide_eq_true_eq, Char.le_def,
    UInt32.le_iff_toNat_le] at h
  have h0 : '0'.val.toNat = 48 := rfl
  have h9 : '9'.val.toNat = 57 := rfl
  omega

theorem exists_hexValue?_of_isHexDigit {c : Char} (h : isHexDigit c = true) :
    ∃ d, hexValue? c = some d ∧ d < 16 := by
  by_cases hdigit : isDigit c = true
  · obtain ⟨d, hd, hlt⟩ := exists_hexValue?_of_isDigit hdigit
    exact ⟨d, hd, by omega⟩
  · simp only [isHexDigit, hdigit, Bool.false_or, Bool.or_eq_true, Bool.and_eq_true,
      decide_eq_true_eq] at h
    have ha : 'a'.val.toNat = 97 := rfl
    have hf : 'f'.val.toNat = 102 := rfl
    have hA : 'A'.val.toNat = 65 := rfl
    have hF : 'F'.val.toNat = 70 := rfl
    rw [hexValue?, if_neg hdigit]
    split
    · rename_i hlower
      simp only [Bool.and_eq_true, decide_eq_true_eq, Char.le_def,
        UInt32.le_iff_toNat_le] at hlower
      exact ⟨_, rfl, by omega⟩
    · rename_i hlower
      simp only [Bool.and_eq_true, decide_eq_true_eq] at hlower
      have hupper := h.resolve_left hlower
      refine ⟨c.val.toNat - 'A'.val.toNat + 10, by simp [hupper], ?_⟩
      simp only [Char.le_def, UInt32.le_iff_toNat_le] at hupper
      omega

end Text

namespace Lexeme

theorem forall_of_runLength {inClass : Char → Bool} {cs : List Char}
    (h : runLength inClass cs = cs.length) : ∀ c ∈ cs, inClass c = true := by
  have hwhole : cs.takeWhile inClass = cs := (List.takeWhile_prefix _).eq_of_length h
  exact List.takeWhile_eq_self_iff.mp hwhole

theorem drop_runLength (inClass : Char → Bool) (cs : List Char) :
    cs.drop (runLength inClass cs) = cs.dropWhile inClass := by
  have hsplit := congrArg (List.drop (runLength inClass cs))
    (List.takeWhile_append_dropWhile (p := inClass) (l := cs))
  rw [← hsplit, runLength, List.drop_left]

end Lexeme

namespace Literal

theorem exists_foldlM {α β : Type} {step : β → α → Option β} {items : List α}
    (h : ∀ item ∈ items, ∀ state, ∃ next, step state item = some next) (state : β) :
    ∃ final, items.foldlM step state = some final := by
  induction items generalizing state with
  | nil => exact ⟨state, rfl⟩
  | cons item items ih =>
      obtain ⟨next, hnext⟩ := h item List.mem_cons_self state
      obtain ⟨final, hfinal⟩ := ih (fun item hitem => h item (List.mem_cons_of_mem _ hitem)) next
      exact ⟨final, by rw [List.foldlM_cons, hnext, Option.bind_eq_bind, Option.bind_some, hfinal]⟩

theorem exists_natural? (base : Nat) {digits : List Char} (hne : digits ≠ [])
    (hdigits : ∀ c ∈ digits, ∃ d, hexValue? c = some d ∧ d < base) :
    ∃ n, natural? base digits = some n := by
  rw [natural?, if_neg (by simpa using hne)]
  apply exists_foldlM
  intro c hc n
  obtain ⟨d, hd, hlt⟩ := hdigits c hc
  exact ⟨base * n + d, by simp [hd, hlt]⟩

theorem splitSign_eq (cs : List Char) : (splitSign cs).2 = cs.drop (signLength cs) := by
  unfold splitSign
  split
  · rfl
  · rfl
  · rename_i hminus hplus
    cases cs with
    | nil => rfl
    | cons c cs =>
        have hc : ¬(c = '+' ∨ c = '-') := by
          rintro (rfl | rfl)
          · exact hplus cs rfl
          · exact hminus cs rfl
        simp [signLength, hc]

theorem splitSign_of_head {cs : List Char} (h : ∀ c ∈ cs.head?, c ≠ '-' ∧ c ≠ '+') :
    splitSign cs = (false, cs) := by
  unfold splitSign
  split
  · exact absurd rfl (h '-' rfl).1
  · exact absurd rfl (h '+' rfl).2
  · rfl

theorem exists_exponent? {cs : List Char} (h : exponentLength cs = cs.length) :
    ∃ n, exponent? cs = some n := by
  cases cs with
  | nil => exact ⟨0, rfl⟩
  | cons e cs =>
      rw [exponentLength_cons] at h
      split at h
      · rename_i hparts
        obtain ⟨he, hdigits⟩ := hparts
        have hwhole : runLength isDigit (cs.drop (signLength cs)) =
            (cs.drop (signLength cs)).length := by
          rw [List.length_drop]
          rw [List.length_cons] at h
          have hsign := (signLength_le cs).2
          omega
        have hne : cs.drop (signLength cs) ≠ [] := by
          intro hnil
          rw [hnil] at hdigits
          cases hdigits
        obtain ⟨n, hn⟩ := exists_natural? 10 hne fun c hc =>
          exists_hexValue?_of_isDigit (forall_of_runLength hwhole c hc)
        refine ⟨if (splitSign cs).1 then -(n : Int) else n, ?_⟩
        simp [exponent?, integer?, he, splitSign_eq, hn]
      · cases h

/-- The digits in front of the exponent of a decimal, and where the exponent
begins. -/
theorem splitFraction_of_mantissa {cs : List Char} (h : mantissaLength cs ≠ 0) :
    cs.takeWhile isDigit ++ (splitFraction (cs.dropWhile isDigit)).1 ≠ [] ∧
      (∀ c ∈ (splitFraction (cs.dropWhile isDigit)).1, isDigit c = true) ∧
      (splitFraction (cs.dropWhile isDigit)).2 = cs.drop (mantissaLength cs) := by
  rw [mantissaLength_eq] at h ⊢
  rw [drop_runLength] at h ⊢
  -- A point belongs to the number only if there is a digit on one side of it.
  by_cases hpoint : ∃ rest, cs.dropWhile isDigit = '.' :: rest
  · obtain ⟨rest, hrest⟩ := hpoint
    rw [hrest, mantissaFrom_point] at h ⊢
    have hsome : runLength isDigit cs + runLength isDigit rest ≠ 0 := fun hzero => h (if_pos hzero)
    rw [if_neg hsome]
    refine ⟨fun hnil => ?_, fun c hc => List.mem_takeWhile_imp hc, ?_⟩
    · obtain ⟨hwhole, hfraction⟩ := List.append_eq_nil_iff.mp hnil
      apply hsome
      rw [runLength, runLength, hwhole, show rest.takeWhile isDigit = [] from hfraction]
      rfl
    · rw [← List.drop_drop, ← List.drop_drop, drop_runLength, hrest, List.drop_succ_cons,
        List.drop_zero, drop_runLength]
      rfl
  · have hhead : (cs.dropWhile isDigit).head? ≠ some '.' := by
      intro hhead
      exact hpoint (List.head?_eq_some_iff.mp hhead)
    have hsplit : splitFraction (cs.dropWhile isDigit) = ([], cs.dropWhile isDigit) := by
      unfold splitFraction
      split
      · rename_i rest hrest
        exact absurd ⟨rest, hrest⟩ hpoint
      · rfl
    rw [mantissaFrom_of_ne _ hhead] at h ⊢
    rw [hsplit, drop_runLength, List.append_nil]
    refine ⟨fun hnil => h ?_, fun c hc => absurd hc List.not_mem_nil, rfl⟩
    rw [runLength, hnil]
    rfl

theorem exists_decimal? {cs : List Char} (hne : cs ≠ []) (h : decimalLength cs = cs.length) :
    ∃ x, decimal? cs = some x := by
  have hpos := List.length_pos_iff.mpr hne
  rw [decimalLength_eq] at h
  split at h
  · omega
  rename_i hmantissa
  obtain ⟨hdigits, hfraction, hrest⟩ := splitFraction_of_mantissa hmantissa
  have hexponent : exponentLength (cs.drop (mantissaLength cs)) =
      (cs.drop (mantissaLength cs)).length := by
    rw [List.length_drop]
    omega
  obtain ⟨exponent, hexponent⟩ := exists_exponent? hexponent
  rw [← hrest] at hexponent
  obtain ⟨mantissa, hnatural⟩ := exists_natural? 10 hdigits fun c hc => by
    apply exists_hexValue?_of_isDigit
    rcases List.mem_append.mp hc with hwhole | hlater
    · exact List.mem_takeWhile_imp hwhole
    · exact hfraction c hlater
  refine ⟨.ofDecimal mantissa
    (exponent - (splitFraction (cs.dropWhile isDigit)).1.length), ?_⟩
  simp only [decimal?, hnatural, hexponent]

/-- Whether a literal is a hexadecimal integer that does not fit into sixty-four
bits with a sign. -/
def overflows (literal : String) : Bool :=
  match literal.toList with
  | '0' :: x :: digits => (x == 'x' || x == 'X') && (natural? 16 digits).any fun n => Nat.pow 2 63 ≤ n
  | _ => false

theorem hexadecimal?_eq_none_iff {digits : List Char} {n : Nat}
    (hsign : splitSign digits = (false, digits)) (h : natural? 16 digits = some n) :
    hexadecimal? digits = none ↔ Nat.pow 2 63 ≤ n := by
  have hvalue : integer? 16 digits = some (n : Int) := by simp [integer?, hsign, h]
  have hbound : Int.pow 2 63 = 9223372036854775808 := rfl
  have hnatural : Nat.pow 2 63 = 9223372036854775808 := rfl
  rw [hexadecimal?, hvalue, hbound, hnatural]
  dsimp only
  split <;> simp <;> omega

theorem of_hexLength {cs : List Char} (h : hexLength cs = cs.length) (hne : cs ≠ []) :
    ∃ x digits, cs = '0' :: x :: digits ∧ (x = 'x' ∨ x = 'X') ∧ digits ≠ [] ∧
      ∀ c ∈ digits, isHexDigit c = true := by
  rcases cs with _ | ⟨c, _ | ⟨x, digits⟩⟩
  · exact absurd rfl hne
  · simp [hexLength] at h
  · rw [hexLength_cons_cons] at h
    split at h
    · rename_i hparts
      obtain ⟨rfl, hx, hdigits⟩ := hparts
      refine ⟨x, digits, rfl, hx, ?_, forall_of_runLength (by simpa using h)⟩
      rintro rfl
      cases hdigits
    · cases h

/-- A number that is read as a decimal one starts with a digit or a point, and
not like a hexadecimal one. -/
theorem of_decimalLength {cs : List Char} (h : decimalLength cs = cs.length) (hne : cs ≠ []) :
    (∀ c ∈ cs.head?, c ≠ '-' ∧ c ≠ '+') ∧
      ∀ x digits, cs = '0' :: x :: digits → x ≠ 'x' ∧ x ≠ 'X' := by
  have hzero : decimalLength cs ≠ 0 := by
    rw [h]
    exact fun hlength => hne (List.eq_nil_of_length_eq_zero hlength)
  constructor
  · rintro c hc
    obtain ⟨rest, rfl⟩ := List.head?_eq_some_iff.mp hc
    constructor <;> rintro rfl <;> exact hzero rfl
  · rintro x digits rfl
    rw [List.length_cons, List.length_cons] at h
    constructor <;> rintro rfl
    · have hone : decimalLength ('0' :: 'x' :: digits) = 1 := rfl
      omega
    · have hone : decimalLength ('0' :: 'X' :: digits) = 1 := rfl
      omega

theorem exists_value?_of_decimal {literal : String} (hne : literal.toList ≠ [])
    (h : decimalLength literal.toList = literal.toList.length) :
    ∃ x, value? literal = some x := by
  obtain ⟨hsign, hdigits⟩ := of_decimalLength h hne
  obtain ⟨x, hx⟩ := exists_decimal? hne h
  refine ⟨x, ?_⟩
  unfold value?
  split
  · exact absurd rfl (hdigits _ _ ‹_›).1
  · exact absurd rfl (hdigits _ _ ‹_›).2
  · simp [signed?, splitSign_of_head hsign, hx]

theorem value?_eq_none_iff {literal : String} (hne : literal.toList ≠ [])
    (h : numberLength literal.toList = literal.toList.length) :
    value? literal = none ↔ overflows literal = true := by
  rw [numberLength_eq] at h
  -- A number is a decimal only where it cannot be hexadecimal, and a decimal has a value.
  by_cases hhex : hexLength literal.toList = 0
  · rw [if_pos hhex] at h
    obtain ⟨x, hx⟩ := exists_value?_of_decimal hne h
    have hdigits := (of_decimalLength h hne).2
    rw [hx, overflows]
    refine iff_of_false nofun ?_
    split
    · rename_i x digits hliteral
      simp [hdigits x digits hliteral]
    · exact Bool.false_ne_true
  · rw [if_neg hhex] at h
    obtain ⟨x, digits, hliteral, hx, hdigits, hclass⟩ := of_hexLength h hne
    obtain ⟨n, hn⟩ := exists_natural? 16 hdigits fun c hc =>
      exists_hexValue?_of_isHexDigit (hclass c hc)
    have hsign : splitSign digits = (false, digits) := by
      apply splitSign_of_head
      intro c hc
      have hhex := hclass c (List.mem_of_head? hc)
      constructor <;> rintro rfl <;> exact absurd hhex (by decide)
    have hvalue : value? literal = hexadecimal? digits := by
      rcases hx with rfl | rfl <;> simp [value?, hliteral]
    rw [hvalue, hexadecimal?_eq_none_iff hsign hn, overflows, hliteral]
    simp [hx, hn]

end Literal

end ScriptKinds
