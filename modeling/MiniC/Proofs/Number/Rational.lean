import Mathlib.Data.Rat.Floor
import Mathlib.Tactic.Linarith
import Mathlib.Tactic.Ring
import MiniC.Number.Binary64

/-!
# Floating values as rational numbers

A finite floating value is a rational number, given by the three fields of its
64 bits: a sign, eleven bits of exponent and 52 bits of fraction. The reading of
a floating value in integers stands for this number. Its truncation is the
number cut toward zero, and it is whole exactly when the number is an integer.
-/

namespace MiniC

/-- A rational number cut toward zero. -/
def towardZero (q : ℚ) : ℤ := if 0 ≤ q then ⌊q⌋ else ⌈q⌉

theorem towardZero_neg (q : ℚ) : towardZero (-q) = -towardZero q := by
  unfold towardZero
  rcases lt_trichotomy q 0 with hq | rfl | hq
  · rw [if_pos (by linarith), if_neg (by linarith), Int.floor_neg]
  · simp
  · rw [if_neg (by linarith), if_pos (by linarith), Int.ceil_neg]

theorem towardZero_div_natCast (a : ℤ) (d : ℕ) : towardZero (a / d) = a.tdiv d := by
  have hnonneg (n : ℕ) : towardZero ((n : ℤ) / d) = (n : ℤ).tdiv d := by
    rw [towardZero, if_pos (by positivity), Rat.floor_intCast_div_natCast,
      Int.tdiv_eq_ediv_of_nonneg (Int.natCast_nonneg n)]
  obtain ⟨n, rfl | rfl⟩ := a.eq_nat_or_neg
  · exact hnonneg n
  · rw [Int.cast_neg, neg_div, towardZero_neg, hnonneg, Int.neg_tdiv]

/-- A quotient of integers, cut toward zero. -/
theorem towardZero_div (a b : ℤ) : towardZero (a / b) = a.tdiv b := by
  obtain ⟨d, rfl | rfl⟩ := b.eq_nat_or_neg
  · exact towardZero_div_natCast a d
  · rw [Int.cast_neg, Int.cast_natCast, div_neg, towardZero_neg, towardZero_div_natCast,
      Int.tdiv_neg]

theorem towardZero_intCast (i : ℤ) : towardZero i = i := by
  simpa using towardZero_div i 1

theorem le_towardZero {i : ℤ} {q : ℚ} (h : (i : ℚ) ≤ q) : i ≤ towardZero q := by
  unfold towardZero
  split
  · exact Int.le_floor.mpr h
  · exact_mod_cast h.trans (Int.le_ceil q)

theorem towardZero_lt {i : ℤ} {q : ℚ} (hi : 0 < i) (h : q < (i : ℚ)) : towardZero q < i := by
  unfold towardZero
  split
  · exact Int.floor_lt.mpr h
  case isFalse hq =>
    exact (Int.ceil_le.mpr (by simpa using (not_le.mp hq).le)).trans_lt hi

theorem div_eq_intCast_iff (n : ℤ) {d : ℕ} (hd : 0 < d) {i : ℤ} :
    (n : ℚ) / d = i ↔ (d : ℤ) ∣ n ∧ n.tdiv d = i := by
  constructor
  · intro h
    have hn : (n : ℚ) = i * d := (div_eq_iff (by positivity)).mp h
    obtain rfl : n = d * i := by exact_mod_cast hn.trans (mul_comm _ _)
    exact ⟨Int.dvd_mul_right _ _, Int.mul_tdiv_cancel_left i (by omega)⟩
  · rintro ⟨⟨k, rfl⟩, hi⟩
    rw [Int.mul_tdiv_cancel_left k (by omega)] at hi
    rw [hi, Int.cast_mul, Int.cast_natCast, mul_div_cancel_left₀ _ (by positivity)]

namespace Binary64

/-- The number that 64 bits stand for, if they stand for one. The largest exponent is that of the
infinities and of what is no number, the least that of the numbers without a leading one. -/
def number? (bits : UInt64) : Option ℚ :=
  let sign : ℚ := if bits.toBitVec.msb then -1 else 1
  let exponent : ℕ := (bits.toBitVec.extractLsb' 52 11).toNat
  let fraction : ℕ := (bits.toBitVec.extractLsb' 0 52).toNat
  if exponent = 2047 then none
  else if exponent = 0 then some (sign * 2 ^ (-1022 : ℤ) * (fraction / 2 ^ 52))
  else some (sign * 2 ^ ((exponent : ℤ) - 1023) * (1 + fraction / 2 ^ 52))

/-- The number that a reading stands for. -/
def Reading.number? : Reading → Option ℚ
  | .finite negative mantissa exponent => some (signed negative mantissa * 2 ^ exponent)
  | _ => none

theorem signed_cast (negative : Bool) (n : ℕ) :
    (signed negative n : ℚ) = (if negative then -1 else 1) * n := by
  cases negative with
  | false => simp [signed]
  | true => simp [signed]

theorem two_zpow_eq {d e : ℤ} (h : d = e + 52) : (2 : ℚ) ^ d = 2 ^ e * 2 ^ 52 := by
  rw [h, zpow_add₀ two_ne_zero]
  rfl

/-- The reading of a floating value stands for the number of its bits. -/
theorem number?_read (f : Float) : (read f).number? = number? f.toBits := by
  have hsign : f.toBits.toBitVec.msb = decide (f.toBits.toNat / signBit % 2 = 1) := by
    have hlt := f.toBits.toNat_lt
    rw [BitVec.msb_eq_decide, UInt64.toNat_toBitVec, decide_eq_decide, signBit]
    omega
  have hexponent : (f.toBits.toBitVec.extractLsb' 52 11).toNat =
      f.toBits.toNat / leadingBit % 2048 := by
    rw [BitVec.extractLsb'_toNat, Nat.shiftRight_eq_div_pow]
    rfl
  have hfraction : (f.toBits.toBitVec.extractLsb' 0 52).toNat = f.toBits.toNat % leadingBit := by
    rw [BitVec.extractLsb'_toNat, Nat.shiftRight_zero]
    rfl
  simp only [read, readBits, number?, hsign, hexponent, hfraction]
  split
  · split
    · rfl
    · rfl
  · split
    · have hscale : (2 : ℚ) ^ (-1022 : ℤ) = 2 ^ (-1074 : ℤ) * 2 ^ 52 := two_zpow_eq (by norm_num)
      simp only [Reading.number?, signed_cast, hscale]
      congr 1
      ring
    · have hscale (e : ℕ) : (2 : ℚ) ^ ((e : ℤ) - 1023) = 2 ^ ((e : ℤ) - 1075) * 2 ^ 52 :=
        two_zpow_eq (by ring)
      have hleading : (leadingBit : ℚ) = 2 ^ 52 := by norm_num [leadingBit]
      simp only [Reading.number?, signed_cast, hscale, Nat.cast_add, hleading]
      congr 1
      ring

/-! ## Truncation and whole numbers -/

section Finite

variable (negative : Bool) (mantissa : ℕ) (exponent : ℤ)

theorem denominator_pos : 0 < denominator exponent := by
  rw [denominator, Nat.shiftLeft_eq]
  positivity

/-- Numerator and denominator make up the number. -/
theorem number?_finite :
    (Reading.finite negative mantissa exponent).number? =
      some ((signed negative (numerator mantissa exponent) : ℚ) / denominator exponent) := by
  have hpower : (2 : ℚ) ^ exponent = 2 ^ exponent.toNat / 2 ^ (-exponent).toNat := by
    rw [eq_div_iff (by positivity), ← zpow_natCast, ← zpow_natCast, ← zpow_add₀ two_ne_zero]
    congr 1
    omega
  simp only [Reading.number?, signed_cast, numerator, denominator, Nat.shiftLeft_eq, hpower]
  congr 1
  push_cast
  ring

theorem signed_div (n d : ℕ) : signed negative (n / d) = (signed negative n).tdiv d := by
  cases negative with
  | false => exact (Int.ofNat_tdiv n d).symm
  | true => exact (congrArg Neg.neg (Int.ofNat_tdiv n d).symm).trans (Int.neg_tdiv n d).symm

theorem natCast_dvd_signed {n d : ℕ} : (d : ℤ) ∣ signed negative n ↔ n % d = 0 := by
  rw [← Nat.dvd_iff_mod_eq_zero, ← Int.natCast_dvd_natCast]
  cases negative with
  | false => exact Iff.rfl
  | true => exact Int.dvd_neg

end Finite

namespace Reading

/-- A number without its fractional part is the number cut toward zero. -/
theorem truncated?_eq (r : Reading) : r.truncated? = r.number?.map towardZero := by
  cases r with
  | finite negative mantissa exponent =>
    rw [number?_finite, Option.map_some, towardZero_div_natCast, truncated?, signed_div]
  | nan => rfl
  | infinite negative => rfl

/-- A reading is whole exactly if its number is an integer. -/
theorem whole?_eq_some_iff {r : Reading} {i : ℤ} : r.whole? = some i ↔ r.number? = some (i : ℚ) := by
  cases r with
  | finite negative mantissa exponent =>
    rw [number?_finite, Option.some.injEq, div_eq_intCast_iff _ (denominator_pos exponent),
      natCast_dvd_signed, ← signed_div]
    exact Option.ite_none_right_eq_some.trans (and_congr_right fun _ => by rw [Option.some.injEq])
  | nan => exact ⟨nofun, nofun⟩
  | infinite negative => exact ⟨nofun, nofun⟩

end Reading

end Binary64

end MiniC
