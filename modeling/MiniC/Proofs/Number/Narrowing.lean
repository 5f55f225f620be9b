import MiniC.Proofs.Number.Order
import MiniC.Value

/-!
# Narrowing keeps the number

A floating value is narrowed exactly if its number is a 64-bit integer, and then
to this integer. The same values are found by comparing floating values: from
the least integer on, and strictly below the value nearest to the largest
integer, which is no 64-bit integer itself.
-/

namespace MiniC.Value

open Binary64 (number? number?_read)

theorem fits_iff {i : ℤ} : fits i = true ↔ -2 ^ 63 ≤ i ∧ i < 2 ^ 63 := by
  rw [fits, Bool.and_eq_true, decide_eq_true_eq, decide_eq_true_eq]
  norm_num

theorem fits_toInt (i : Int64) : fits i.toInt = true :=
  fits_iff.mpr ⟨i.le_toInt, i.toInt_lt⟩

theorem toInt_ofInt_of_fits {i : ℤ} (h : fits i = true) : (Int64.ofInt i).toInt = i := by
  obtain ⟨hle, hlt⟩ := fits_iff.mp h
  exact Int64.toInt_ofInt_of_le hle hlt

/-- The 64-bit integer of a floating value is its number. -/
theorem exactInt?_eq_some_iff {f : Float} {i : Int64} :
    exactInt? f = some i ↔ number? f.toBits = some (i.toInt : ℚ) := by
  rw [← number?_read, ← Binary64.Reading.whole?_eq_some_iff, exactInt?]
  cases hwhole : (Binary64.read f).whole? with
  | none => simp
  | some n =>
    rw [Option.ite_none_right_eq_some, Option.some.injEq, Option.some.injEq]
    constructor
    · rintro ⟨hfits, rfl⟩
      exact (toInt_ofInt_of_fits hfits).symm
    · rintro rfl
      exact ⟨fits_toInt i, Int64.ofInt_toInt i⟩

/-- A floating value has a 64-bit integer if its number is an integer in range. -/
theorem exists_exactInt?_iff {f : Float} :
    (∃ i, exactInt? f = some i) ↔
      ∃ i : ℤ, number? f.toBits = some (i : ℚ) ∧ -2 ^ 63 ≤ i ∧ i < 2 ^ 63 := by
  constructor
  · rintro ⟨i, hi⟩
    exact ⟨i.toInt, exactInt?_eq_some_iff.mp hi, i.le_toInt, i.toInt_lt⟩
  · rintro ⟨i, hi, hle, hlt⟩
    refine ⟨Int64.ofInt i, exactInt?_eq_some_iff.mpr ?_⟩
    rw [Int64.toInt_ofInt_of_le hle hlt, hi]

theorem narrow_float_eq_int_iff {f : Float} {i : Int64} :
    (float f).narrow = .int i ↔ exactInt? f = some i := by
  cases h : exactInt? f with
  | none => simp [narrow, h]
  | some j => simp [narrow, h]

theorem narrow_float_eq_float_iff {f : Float} :
    (float f).narrow = .float f ↔ exactInt? f = none := by
  cases h : exactInt? f with
  | none => simp [narrow, h]
  | some j => simp [narrow, h]

/-- A floating value whose number is in range is truncated toward zero. -/
theorem toInt_asInt {f : Float} {q : ℚ} (hq : number? f.toBits = some q) (hle : -2 ^ 63 ≤ q)
    (hlt : q < 2 ^ 63) : (float f).asInt.toInt = towardZero q := by
  have hfits : fits (towardZero q) = true := by
    refine fits_iff.mpr ⟨le_towardZero ?_, towardZero_lt (by norm_num) ?_⟩
    · exact_mod_cast hle
    · exact_mod_cast hlt
  rw [asInt, Binary64.Reading.truncated?_eq, number?_read, hq, Option.map_some]
  exact (congrArg Int64.toInt (if_pos hfits)).trans (toInt_ofInt_of_fits hfits)

theorem toInt_bounds (i : Int64) : -2 ^ 63 ≤ (i.toInt : ℚ) ∧ (i.toInt : ℚ) < 2 ^ 63 :=
  ⟨by exact_mod_cast i.le_toInt, by exact_mod_cast i.toInt_lt⟩

/-! ## The limits as floating values -/

theorem number?_asFloat_minValue :
    number? (int Int64.minValue).asFloat.toBits = some (-2 ^ 63) := by
  have hread : Binary64.read (int Int64.minValue).asFloat = .finite true (2 ^ 52) 11 := rfl
  rw [← number?_read, hread]
  norm_num [Binary64.Reading.number?, Binary64.signed_cast]

/-- The largest integer is no floating value: the nearest one is the integer behind it. -/
theorem number?_asFloat_maxValue :
    number? (int Int64.maxValue).asFloat.toBits = some (2 ^ 63) := by
  have hread : Binary64.read (int Int64.maxValue).asFloat = .finite false (2 ^ 52) 11 := rfl
  rw [← number?_read, hread]
  norm_num [Binary64.Reading.number?, Binary64.signed_cast]

/-- The test of a floating value before it is converted: a whole number, from the least integer on
and below the largest. The limits are compared as floating values. -/
def Convertible (f : Float) : Prop :=
  (∃ i : ℤ, number? f.toBits = some (i : ℚ)) ∧
    (int Int64.minValue).asFloat ≤ f ∧ f < (int Int64.maxValue).asFloat

theorem convertible_iff {f : Float} :
    Convertible f ↔ ∃ i : ℤ, number? f.toBits = some (i : ℚ) ∧ -2 ^ 63 ≤ i ∧ i < 2 ^ 63 := by
  have hlimits (i : ℤ) (hi : number? f.toBits = some (i : ℚ)) :
      ((int Int64.minValue).asFloat ≤ f ∧ f < (int Int64.maxValue).asFloat) ↔
        -2 ^ 63 ≤ i ∧ i < 2 ^ 63 := by
    rw [Binary64.le_iff number?_asFloat_minValue hi, Binary64.lt_iff hi number?_asFloat_maxValue]
    norm_cast
  constructor
  · rintro ⟨⟨i, hi⟩, hbounds⟩
    exact ⟨i, hi, (hlimits i hi).mp hbounds⟩
  · rintro ⟨i, hi, hbounds⟩
    exact ⟨⟨i, hi⟩, (hlimits i hi).mpr hbounds⟩

/-- What narrowing and truncation make of a floating value, in terms of the number that its bits
stand for. -/
structure NarrowsExactly (f : Float) : Prop where
  /-- The integer it is narrowed to is its number. -/
  to_int (i : Int64) : (float f).narrow = .int i ↔ number? f.toBits = some (i.toInt : ℚ)
  /-- It is left alone exactly if it stands for no integer of 64 bits. -/
  unchanged : (float f).narrow = .float f ↔
    ¬∃ i : ℤ, number? f.toBits = some (i : ℚ) ∧ -2 ^ 63 ≤ i ∧ i < 2 ^ 63
  /-- The test in floating comparisons finds what is narrowed. -/
  tested : Convertible f ↔ ∃ i, (float f).narrow = .int i
  /-- What is narrowed is truncated, and its number is in the range of truncation. -/
  converted (i : Int64) : (float f).narrow = .int i →
    (float f).asInt = i ∧ ∃ q, number? f.toBits = some q ∧ -2 ^ 63 ≤ q ∧ q < 2 ^ 63
  /-- In its range, truncation cuts the number toward zero. -/
  truncated (q : ℚ) : number? f.toBits = some q → -2 ^ 63 ≤ q → q < 2 ^ 63 →
    (float f).asInt.toInt = towardZero q

/-- Narrowing never changes a number, whatever the floating value. -/
theorem narrow_preserves_number (f : Float) : NarrowsExactly f where
  to_int i := narrow_float_eq_int_iff.trans exactInt?_eq_some_iff
  unchanged := by
    rw [narrow_float_eq_float_iff, ← exists_exactInt?_iff, ← Option.isSome_iff_exists,
      Option.not_isSome_iff_eq_none]
  tested := by
    simp only [convertible_iff, narrow_float_eq_int_iff, exists_exactInt?_iff]
  converted i hi := by
    have hnumber := exactInt?_eq_some_iff.mp (narrow_float_eq_int_iff.mp hi)
    obtain ⟨hle, hlt⟩ := toInt_bounds i
    refine ⟨Int64.toInt_inj.mp ?_, i.toInt, hnumber, hle, hlt⟩
    rw [toInt_asInt hnumber hle hlt, towardZero_intCast]
  truncated q := toInt_asInt

-- The least integer survives widening; the largest becomes a number that cannot be narrowed.
example : (int Int64.minValue).toFloat.narrow = int Int64.minValue := rfl

example : (int Int64.maxValue).toFloat.narrow = (int Int64.maxValue).toFloat := rfl

end MiniC.Value
