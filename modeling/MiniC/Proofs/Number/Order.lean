import Mathlib.Algebra.Order.Field.Power
import MiniC.Proofs.Number.Rational

/-!
# Floating values compare as their numbers

Comparing two floating values compares their exponents first and the mantissas
after. This is the order of the numbers, because a mantissa is below `2 ^ 53`
and only that of the least exponent may lack its leading bit.
-/

namespace MiniC.Binary64

open Float.Model (UnpackedFloat)

/-- The one way to write a positive number: the mantissa has its leading bit, unless the exponent
is the least. -/
structure Canonical (mantissa : ℕ) (exponent : ℤ) : Prop where
  mantissa_lt : mantissa < 2 ^ 53
  least_le : -1074 ≤ exponent
  leading : exponent = -1074 ∨ 2 ^ 52 ≤ mantissa

theorem Canonical.lt_of_exponent_lt {m₁ m₂ : ℕ} {e₁ e₂ : ℤ} (h₁ : Canonical m₁ e₁)
    (h₂ : Canonical m₂ e₂) (he : e₁ < e₂) : (m₁ * 2 ^ e₁ : ℚ) < m₂ * 2 ^ e₂ := by
  have hleading : 2 ^ 52 ≤ m₂ := h₂.leading.resolve_left (by have := h₁.least_le; omega)
  have hm₁ : (m₁ : ℚ) < 2 ^ 53 := by exact_mod_cast h₁.mantissa_lt
  have hm₂ : (2 ^ 52 : ℚ) ≤ m₂ := by exact_mod_cast hleading
  calc (m₁ * 2 ^ e₁ : ℚ)
      < 2 ^ 53 * 2 ^ e₁ := by gcongr
    _ = 2 ^ 52 * 2 ^ (e₁ + 1) := by rw [zpow_add_one₀ two_ne_zero]; ring
    _ ≤ m₂ * 2 ^ e₂ := by
      gcongr
      · exact one_le_two
      · exact he

/-- Exponents first, mantissas after: the order of the numbers. -/
theorem Canonical.compares {m₁ m₂ : ℕ} {e₁ e₂ : ℤ} (h₁ : Canonical m₁ e₁)
    (h₂ : Canonical m₂ e₂) :
    ((compare e₁ e₂).then (compare m₁ m₂)).Compares (m₁ * 2 ^ e₁ : ℚ) (m₂ * 2 ^ e₂) := by
  rcases lt_trichotomy e₁ e₂ with he | rfl | he
  · rw [compare_lt_iff_lt.mpr he]
    exact h₁.lt_of_exponent_lt h₂ he
  · have hpos : (0 : ℚ) < 2 ^ e₁ := by positivity
    rw [compare_eq_iff_eq.mpr rfl, Ordering.eq_then]
    rcases lt_trichotomy m₁ m₂ with hm | rfl | hm
    · rw [compare_lt_iff_lt.mpr hm]
      exact mul_lt_mul_of_pos_right (Nat.cast_lt.mpr hm) hpos
    · rw [compare_eq_iff_eq.mpr rfl]
      exact (rfl : (m₁ * 2 ^ e₁ : ℚ) = m₁ * 2 ^ e₁)
    · rw [compare_gt_iff_gt.mpr hm]
      exact mul_lt_mul_of_pos_right (Nat.cast_lt.mpr hm) hpos
  · rw [compare_gt_iff_gt.mpr he]
    exact h₂.lt_of_exponent_lt h₁ he

/-- An unpacked floating value in canonical form, and the number that it stands for. -/
inductive Unpacked : UnpackedFloat → ℚ → Prop where
  | zero (sign) : Unpacked (.zero sign) 0
  | positive (m e hm) (hc : Canonical m e) : Unpacked (.finite .positive m e hm) (m * 2 ^ e)
  | negative (m e hm) (hc : Canonical m e) : Unpacked (.finite .negative m e hm) (-(m * 2 ^ e))

private theorem magnitude_pos {m : ℕ} (hm : 0 < m) (e : ℤ) : (0 : ℚ) < m * 2 ^ e := by
  positivity

/-- Unpacked values compare as their numbers. -/
theorem Unpacked.compares {u v : UnpackedFloat} {p q : ℚ} (hu : Unpacked u p)
    (hv : Unpacked v q) : ∃ o, u.compare v = some o ∧ o.Compares p q := by
  cases hu with
  | zero =>
    cases hv with
    | zero => exact ⟨.eq, rfl, (rfl : (0 : ℚ) = 0)⟩
    | positive n d hn => exact ⟨.lt, rfl, magnitude_pos hn d⟩
    | negative n d hn => exact ⟨.gt, rfl, neg_neg_of_pos (magnitude_pos hn d)⟩
  | positive m e hm hc =>
    have hp := magnitude_pos hm e
    cases hv with
    | zero => exact ⟨.gt, rfl, hp⟩
    | positive n d _ hd => exact ⟨_, rfl, hc.compares hd⟩
    | negative n d hn => exact ⟨.gt, rfl, (neg_neg_of_pos (magnitude_pos hn d)).trans hp⟩
  | negative m e hm hc =>
    have hp := neg_neg_of_pos (magnitude_pos hm e)
    cases hv with
    | zero => exact ⟨.lt, rfl, hp⟩
    | positive n d hn => exact ⟨.lt, rfl, hp.trans (magnitude_pos hn d)⟩
    | negative n d _ hd =>
      -- Of two negative numbers the one with the larger magnitude is the smaller.
      refine ⟨_, rfl, ?_⟩
      have := (hc.compares hd).swap
      generalize ((compare e d).then (compare m n)).swap = o at this ⊢
      cases o with
      | lt => exact neg_lt_neg (this : _ < _)
      | eq => exact congrArg Neg.neg (Eq.symm this)
      | gt => exact neg_lt_neg (this : _ < _)

/-! ## Unpacked bits -/

section Unpack

open Float.Model.UnpackedFloat

variable (b : BitVec 64)

theorem toNat_unpackMantissa :
    (@unpackMantissa .binary64 b).toNat = (b.extractLsb' 0 52).toNat :=
  rfl

theorem toNat_leading_unpackMantissa :
    (1#1 ++ @unpackMantissa .binary64 b).toNat = 2 ^ 52 + (b.extractLsb' 0 52).toNat := by
  rw [BitVec.toNat_append, ← Nat.shiftLeft_add_eq_or_of_lt (BitVec.isLt _)]
  rfl

theorem toNat_unpackExponent :
    (@unpackExponent .binary64 b).toNat = (b.extractLsb' 52 11).toNat :=
  rfl

theorem unpackExponent_sub_bias :
    ((@unpackExponent .binary64 b).toNat : ℤ) -
      (Float.Model.Format.exponentBias .binary64 + (52 : ℕ)) =
        (b.extractLsb' 52 11).toNat - 1075 :=
  rfl

theorem ofBitVec_unpackSign :
    Sign.ofBitVec (@unpackSign .binary64 b) = if b.msb then .negative else .positive := by
  have hfield : (@unpackSign .binary64 b).toNat = (b.extractLsb' 63 1).toNat := rfl
  have hlt := b.isLt
  have hzero : @unpackSign .binary64 b = 0#1 ↔ b.msb = false := by
    rw [← BitVec.toNat_inj, hfield, BitVec.extractLsb'_toNat, Nat.shiftRight_eq_div_pow,
      BitVec.msb_eq_decide, decide_eq_false_iff_not, BitVec.toNat_zero]
    omega
  simp only [Sign.ofBitVec, hzero]
  cases b.msb <;> rfl

end Unpack

/-- A sign before a magnitude. -/
theorem Unpacked.signed {s : UnpackedFloat.Sign} {m m' : ℕ} {e e' : ℤ} {hpos : 0 < m}
    {negative : Bool} {q : ℚ} (hs : s = if negative then .negative else .positive) (hm : m = m')
    (he : e = e') (hc : Canonical m' e') (hq : (if negative then -1 else 1) * (m' * 2 ^ e') = q) :
    Unpacked (.finite s m e hpos) q := by
  subst hs hm he
  cases negative with
  | false =>
    obtain rfl : m * 2 ^ e = q := by simpa using hq
    exact .positive m e hpos hc
  | true =>
    obtain rfl : -(m * 2 ^ e) = q := by simpa using hq
    exact .negative m e hpos hc

/-- Unpacking bits gives the number that they stand for, in canonical form. -/
theorem unpacked_of_number? {bits : UInt64} {q : ℚ} (h : number? bits = some q) :
    Unpacked (UnpackedFloat.unpack .binary64 bits.toBitVec) q := by
  have hfraction := (bits.toBitVec.extractLsb' 0 52).isLt
  have hsign := ofBitVec_unpackSign bits.toBitVec
  simp only [number?] at h
  delta UnpackedFloat.unpack
  dsimp only
  by_cases hspecial : (bits.toBitVec.extractLsb' 52 11).toNat = 2047
  · rw [if_pos hspecial] at h
    cases h
  rw [if_neg hspecial] at h
  rw [if_neg (fun he => hspecial (by rw [← toNat_unpackExponent, he]; rfl))]
  by_cases hleast : (bits.toBitVec.extractLsb' 52 11).toNat = 0
  · rw [if_pos hleast, Option.some.injEq] at h
    rw [if_pos (BitVec.eq_of_toNat_eq hleast)]
    -- Without a leading bit, zero is unpacked apart from the other numbers.
    by_cases hf : @UnpackedFloat.unpackMantissa .binary64 bits.toBitVec = 0#52
    · rw [dif_pos hf]
      have hzero : (bits.toBitVec.extractLsb' 0 52).toNat = 0 := by
        rw [← toNat_unpackMantissa, hf]
        rfl
      obtain rfl : 0 = q := by simpa [hzero] using h
      exact .zero _
    · rw [dif_neg hf]
      have he : ((@UnpackedFloat.unpackExponent .binary64 bits.toBitVec).toNat : ℤ) -
          (Float.Model.Format.exponentBias .binary64 + (52 : ℕ)) + 1 = -1074 := by
        rw [unpackExponent_sub_bias, hleast]
        rfl
      refine .signed hsign (toNat_unpackMantissa _) he ⟨by omega, le_rfl, .inl rfl⟩ ?_
      rw [← h, two_zpow_eq (by norm_num : (-1022 : ℤ) = -1074 + 52)]
      ring
  · rw [if_neg hleast, Option.some.injEq] at h
    rw [if_neg (fun he => hleast (by rw [← toNat_unpackExponent, he]; rfl))]
    refine .signed hsign (toNat_leading_unpackMantissa _) (unpackExponent_sub_bias _)
      ⟨by omega, by omega, .inr (by omega)⟩ ?_
    rw [← h, two_zpow_eq (d := _ - 1023) (e := _ - 1075) (by ring)]
    push_cast
    ring

/-! ## The order of floating values -/

section Order

variable {f g : Float} {p q : ℚ} (hf : number? f.toBits = some p) (hg : number? g.toBits = some q)
include hf hg

theorem compares_number : ∃ o, f.toModel.unpack.compare g.toModel.unpack = some o ∧ o.Compares p q :=
  (unpacked_of_number? hf).compares (unpacked_of_number? hg)

/-- Floating values are ordered as their numbers. -/
theorem lt_iff : f < g ↔ p < q := by
  obtain ⟨o, hcompare, ho⟩ := compares_number hf hg
  have hlt : f < g ↔ f.toModel.unpack.compare g.toModel.unpack = some .lt :=
    decide_eq_true_iff.trans beq_iff_eq
  rw [hlt, hcompare, Option.some.injEq, ho.eq_lt]

theorem le_iff : f ≤ g ↔ p ≤ q := by
  obtain ⟨o, hcompare, ho⟩ := compares_number hf hg
  have hle : f ≤ g ↔ (f.toModel.unpack.compare g.toModel.unpack).any (·.isLE) = true :=
    decide_eq_true_iff
  rw [hle, hcompare, Option.any_some, ← Ordering.ne_gt_iff_isLE]
  exact ho.ne_gt

end Order

end MiniC.Binary64
