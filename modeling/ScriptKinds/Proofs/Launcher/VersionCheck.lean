import Mathlib.Data.List.Induction
import Mathlib.Data.Nat.Digits.Defs
import ScriptKinds.Launcher.Version
import ScriptKinds.Proofs.Numeric.NumberValue

namespace ScriptKinds.Launcher

open Text Literal

/-! ### The value of a run of digits -/

/-- The number that a run of ASCII digits writes in base ten. -/
def decimalValue (digits : List Char) : Nat :=
  Nat.ofDigits 10 (digits.reverse.map fun c => c.toNat - '0'.toNat)

theorem decimalValue_concat (digits : List Char) (c : Char) :
    decimalValue (digits ++ [c]) = 10 * decimalValue digits + (c.toNat - '0'.toNat) := by
  rw [decimalValue, List.reverse_concat, List.map_cons, Nat.ofDigits_cons, decimalValue,
    Nat.add_comm]

/-- One more digit in base ten. -/
def appendDigit? (n : Nat) (c : Char) : Option Nat :=
  if isDigit c then some (10 * n + (c.toNat - '0'.toNat)) else none

theorem foldlM_appendDigit? (digits : List Char) :
    digits.foldlM appendDigit? 0 =
      if digits.all isDigit then some (decimalValue digits) else none := by
  induction digits using List.reverseRecOn with
  | nil => rfl
  | append_singleton digits c ih =>
      rw [List.foldlM_append, ih, List.all_append, decimalValue_concat]
      cases digits.all isDigit <;> cases hc : isDigit c <;> simp [appendDigit?, hc]

theorem natural?_ten (digits : List Char) :
    natural? 10 digits = if digits.isEmpty then none else digits.foldlM appendDigit? 0 := by
  rw [natural?]
  congr
  funext n c
  by_cases hdigit : isDigit c = true
  · obtain ⟨d, hvalue, hd⟩ := exists_hexValue?_of_isDigit hdigit
    have hd' : d = c.toNat - '0'.toNat := by
      rw [hexValue?, if_pos hdigit] at hvalue
      exact (Option.some.inj hvalue).symm
    rw [appendDigit?, if_pos hdigit, ← hd']
    simp only [hvalue, if_pos hd]
  · rw [appendDigit?, if_neg hdigit, hexValue?, if_neg hdigit]
    split
    · rename_i d hvalue
      have hd : 10 ≤ d := by grind
      exact if_neg (by omega)
    · rfl

theorem natural?_ten_eq_some_iff {digits : List Char} {n : Nat} :
    natural? 10 digits = some n ↔
      digits ≠ [] ∧ (∀ c ∈ digits, isDigit c = true) ∧ decimalValue digits = n := by
  rw [natural?_ten, foldlM_appendDigit?]
  by_cases hne : digits = []
  · simp [hne]
  · simp [hne]

/-! ### The pattern of a version -/

/-- One decimal digit or more, and nothing else. -/
def DigitRun (run : List Char) : Prop :=
  run ≠ [] ∧ ∀ c ∈ run, isDecimalDigit c = true

/-- A text starts with an optional `v` and three runs of digits with points between
them.  The first of them are the digits of its major version. -/
def VersionPrefix (text major : List Char) : Prop :=
  ∃ mark minor patch rest, (mark = [] ∨ mark = ['v']) ∧
    DigitRun major ∧ DigitRun minor ∧ DigitRun patch ∧
    text = mark ++ (major ++ '.' :: (minor ++ '.' :: (patch ++ rest)))

theorem digitRun_takeWhile {text : List Char} (h : text.takeWhile isDecimalDigit ≠ []) :
    DigitRun (text.takeWhile isDecimalDigit) :=
  ⟨h, fun _ hc => List.mem_takeWhile_imp hc⟩

theorem DigitRun.takeWhile_append {run : List Char} (h : DigitRun run) (rest : List Char) :
    (run ++ '.' :: rest).takeWhile isDecimalDigit = run := by
  have hpoint : isDecimalDigit '.' = false := by decide
  rw [List.takeWhile_append_of_pos h.2, List.takeWhile_cons_of_neg (by simp [hpoint]),
    List.append_nil]

theorem DigitRun.dropWhile_append {run : List Char} (h : DigitRun run) (rest : List Char) :
    (run ++ '.' :: rest).dropWhile isDecimalDigit = '.' :: rest := by
  have hpoint : isDecimalDigit '.' = false := by decide
  rw [List.dropWhile_append_of_pos h.2, List.dropWhile_cons_of_neg (by simp [hpoint])]

theorem DigitRun.skipMark_append {run : List Char} (h : DigitRun run) {mark : List Char}
    (hmark : mark = [] ∨ mark = ['v']) (rest : List Char) :
    skipMark (mark ++ (run ++ rest)) = run ++ rest := by
  rcases hmark with rfl | rfl
  · obtain ⟨c, cs, rfl⟩ := List.exists_cons_of_ne_nil h.1
    have hv : c ≠ 'v' := by
      rintro rfl
      exact absurd (h.2 _ List.mem_cons_self) (by decide)
    unfold skipMark
    split
    · rename_i heq
      exact absurd (List.cons.inj heq).1 hv
    · rfl
  · rfl

theorem exists_mark (text : List Char) :
    ∃ mark, (mark = [] ∨ mark = ['v']) ∧ text = mark ++ skipMark text := by
  unfold skipMark
  split
  · exact ⟨['v'], .inr rfl, rfl⟩
  · exact ⟨[], .inl rfl, rfl⟩

theorem exists_run_of_skipPart? {text rest : List Char} (h : skipPart? text = some rest) :
    ∃ run, DigitRun run ∧ text = '.' :: (run ++ rest) := by
  unfold skipPart? at h
  split at h
  · rename_i cs
    split at h
    · cases h
    · rename_i hrun
      refine ⟨cs.takeWhile isDecimalDigit, digitRun_takeWhile (by simp [hrun]), ?_⟩
      rw [← Option.some.inj h, List.takeWhile_append_dropWhile]
  · cases h

theorem skipPart?_append {run : List Char} (h : DigitRun run) (rest : List Char) :
    skipPart? ('.' :: (run ++ '.' :: rest)) = some ('.' :: rest) := by
  obtain ⟨c, cs, hrun⟩ := List.exists_cons_of_ne_nil h.1
  rw [skipPart?, h.takeWhile_append, hrun]
  exact congrArg some (hrun ▸ h.dropWhile_append rest)

theorem exists_skipPart?_append {run : List Char} (h : DigitRun run) (rest : List Char) :
    ∃ left, skipPart? ('.' :: (run ++ rest)) = some left := by
  obtain ⟨c, cs, hrun⟩ := List.exists_cons_of_ne_nil h.1
  have htake : (run ++ rest).takeWhile isDecimalDigit ≠ [] := by
    rw [List.takeWhile_append_of_pos h.2, hrun]
    exact List.cons_ne_nil _ _
  obtain ⟨d, ds, hds⟩ := List.exists_cons_of_ne_nil htake
  exact ⟨(run ++ rest).dropWhile isDecimalDigit, by rw [skipPart?, hds]⟩

theorem majorDigits?_eq_some_iff {text major : List Char} :
    majorDigits? text = some major ↔ VersionPrefix text major := by
  constructor
  · intro h
    obtain ⟨mark, hmark, htext⟩ := exists_mark text
    simp only [majorDigits?] at h
    split at h
    · cases h
    · rename_i hmajor
      split at h
      · rename_i rest hparts
        obtain ⟨between, hminor, hpatch⟩ := Option.bind_eq_some_iff.mp hparts
        obtain ⟨minor, hminorRun, hafter⟩ := exists_run_of_skipPart? hminor
        obtain ⟨patch, hpatchRun, hbetween⟩ := exists_run_of_skipPart? hpatch
        refine ⟨mark, minor, patch, rest, hmark, ?_, hminorRun, hpatchRun, ?_⟩
        · exact Option.some.inj h ▸ digitRun_takeWhile hmajor
        · rw [← Option.some.inj h, ← hbetween, ← hafter, List.takeWhile_append_dropWhile]
          exact htext
      · cases h
  · rintro ⟨mark, minor, patch, rest, hmark, hmajor, hminor, hpatch, rfl⟩
    obtain ⟨left, hleft⟩ := exists_skipPart?_append hpatch rest
    have hparts : (skipPart? ('.' :: (minor ++ '.' :: (patch ++ rest)))).bind skipPart? =
        some left := by
      rw [skipPart?_append hminor, Option.bind_some, hleft]
    simp only [majorDigits?, hmajor.skipMark_append hmark, hmajor.takeWhile_append,
      hmajor.dropWhile_append, hparts]
    split
    · exact absurd rfl hmajor.1
    · rfl

theorem VersionPrefix.ne_nil {text major : List Char} (h : VersionPrefix text major) :
    major ≠ [] := by
  obtain ⟨-, -, -, -, -, hmajor, -⟩ := h
  exact hmajor.1

/-! ### The outcomes -/

/-- A text starts with a version whose major version can be read. -/
def HasMajor (text : List Char) (major : Nat) : Prop :=
  ∃ digits, VersionPrefix text digits ∧ (∀ c ∈ digits, isDigit c = true) ∧
    decimalValue digits = major ∧ major < 2 ^ 32

theorem majorVersion?_eq_some_iff {text : List Char} {major : Nat} :
    majorVersion? text = some major ↔ HasMajor text major := by
  have hsize : Nat.pow 2 32 = 2 ^ 32 := rfl
  rw [majorVersion?, hsize]
  constructor
  · intro h
    split at h
    · rename_i n hread
      obtain ⟨digits, hdigits, hnatural⟩ := Option.bind_eq_some_iff.mp hread
      obtain ⟨-, hascii, hvalue⟩ := natural?_ten_eq_some_iff.mp hnatural
      obtain ⟨hlt, hn⟩ := Option.ite_none_right_eq_some.mp h
      rw [← Option.some.inj hn]
      exact ⟨digits, majorDigits?_eq_some_iff.mp hdigits, hascii, hvalue, hlt⟩
    · cases h
  · rintro ⟨digits, hdigits, hascii, hvalue, hlt⟩
    have hnatural : natural? 10 digits = some major :=
      natural?_ten_eq_some_iff.mpr ⟨hdigits.ne_nil, hascii, hvalue⟩
    rw [majorDigits?_eq_some_iff.mpr hdigits, Option.bind_some, hnatural]
    exact if_pos hlt

theorem HasMajor.unique {text : List Char} {major other : Nat} (h : HasMajor text major)
    (hother : HasMajor text other) : major = other :=
  Option.some.inj
    ((majorVersion?_eq_some_iff.mpr h).symm.trans (majorVersion?_eq_some_iff.mpr hother))

theorem forall_not_hasMajor_iff {text : List Char} :
    (∀ major, ¬ HasMajor text major) ↔
      ∀ digits, VersionPrefix text digits →
        (∃ c ∈ digits, isDigit c = false) ∨ 2 ^ 32 ≤ decimalValue digits := by
  constructor
  · intro h digits hdigits
    by_contra hread
    simp only [not_or, not_exists, not_and, Bool.not_eq_false, not_le] at hread
    exact h _ ⟨digits, hdigits, hread.1, rfl, hread.2⟩
  · rintro h major ⟨digits, hdigits, hascii, rfl, hlt⟩
    rcases h digits hdigits with ⟨c, hc, hother⟩ | hle
    · exact absurd (hascii c hc) (by simp [hother])
    · omega

theorem checkVersion_of_hasMajor {actual : String} {major : Nat}
    (h : HasMajor actual.toList major) (required : Nat) :
    checkVersion actual required =
      if major < required then .error (.incompatibleVersion required actual) else .ok () := by
  rw [checkVersion, majorVersion?_eq_some_iff.mpr h]

theorem checkVersion_of_forall_not {actual : String}
    (h : ∀ major, ¬ HasMajor actual.toList major) (required : Nat) :
    checkVersion actual required = .error (.unparseableVersion actual) := by
  have hnone : majorVersion? actual.toList = none :=
    Option.eq_none_iff_forall_ne_some.mpr fun major hmajor =>
      h major (majorVersion?_eq_some_iff.mp hmajor)
  rw [checkVersion, hnone]

/-- The check of a version is decided by its major version alone.  A text has no major
version that can be read if it does not start with a version, or if the first run of
digits has one of another script or writes a number of more than thirty-two bits. -/
theorem checkVersion_by_major (actual : String) (required : Nat) :
    (checkVersion actual required = .ok () ↔
      ∃ major, HasMajor actual.toList major ∧ required ≤ major) ∧
    (checkVersion actual required = .error (.incompatibleVersion required actual) ↔
      ∃ major, HasMajor actual.toList major ∧ major < required) ∧
    (checkVersion actual required = .error (.unparseableVersion actual) ↔
      ∀ digits, VersionPrefix actual.toList digits →
        (∃ c ∈ digits, isDigit c = false) ∨ 2 ^ 32 ≤ decimalValue digits) ∧
    ∀ smaller ≤ required, checkVersion actual required = .ok () →
      checkVersion actual smaller = .ok () := by
  rw [← forall_not_hasMajor_iff]
  by_cases hread : ∃ major, HasMajor actual.toList major
  · obtain ⟨major, hmajor⟩ := hread
    have hexists (p : Nat → Prop) :
        (∃ other, HasMajor actual.toList other ∧ p other) ↔ p major :=
      ⟨fun ⟨_, hother, hp⟩ => hmajor.unique hother ▸ hp, fun hp => ⟨major, hmajor, hp⟩⟩
    have hsome : ¬ ∀ major, ¬ HasMajor actual.toList major := fun h => h major hmajor
    simp only [checkVersion_of_hasMajor hmajor, hexists, hsome]
    grind
  · have hnone : ∀ major, ¬ HasMajor actual.toList major := not_exists.mp hread
    simp [checkVersion_of_forall_not hnone, hnone]

/-- A leading zero and what follows the version make no difference. -/
theorem checkVersion_with_leading_zero :
    checkVersion "v012.22.9-nightly" 12 = .ok () ∧ 8 ≤ 12 ∧
      checkVersion "v012.22.9-nightly" 8 = .ok () := by
  have haccepted : checkVersion "v012.22.9-nightly" 12 = .ok () := by decide
  exact ⟨haccepted, by decide,
    (checkVersion_by_major "v012.22.9-nightly" 12).2.2.2 8 (by decide) haccepted⟩

/-- The digits of other scripts make a version, but no major version. -/
example : checkVersion "v\u0669.1.0" 8 = .error (.unparseableVersion "v\u0669.1.0") := by
  decide

end ScriptKinds.Launcher
