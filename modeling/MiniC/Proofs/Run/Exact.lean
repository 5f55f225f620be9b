import Mathlib.Data.Int.ModEq
import MiniC.Proofs.Number.Rational
import MiniC.Proofs.Run.Integer

/-!
# Exact arithmetic

What the operators do to two integers, measured by the integers themselves.
Sums, differences and products are exact modulo `2 ^ 64`. A quotient is the
rational quotient cut toward zero, and the remainder is what it leaves; the one
quotient that is no 64-bit integer wraps around like a product. Comparisons are
those of the integers.
-/

namespace MiniC

/-- A word is the only one that is congruent to an integer modulo `2 ^ 64`. -/
def Wraps (z : ℤ) (w : Int64) : Prop := ∀ x : Int64, x.toInt ≡ z [ZMOD 2 ^ 64] ↔ x = w

/-- The quotient and the remainder of a division on words. -/
structure DividesInto (a b q r : ℤ) : Prop where
  /-- Together they make up the dividend. -/
  congruent : q * b + r ≡ a [ZMOD 2 ^ 64]
  /-- The remainder is smaller than the divisor. -/
  smaller : |r| < |b|
  /-- The remainder has the sign of the dividend. -/
  sign : r = 0 ∨ r.sign = a.sign
  /-- The quotient is cut toward zero, unless it is no word. -/
  truncated : ¬ (a = -2 ^ 63 ∧ b = -1) → q = towardZero (a / b)
  /-- The quotient that is no word wraps around. -/
  wrapped : a = -2 ^ 63 → b = -1 → q = -2 ^ 63 ∧ r = 0

/-- What the operators do to two integers. -/
structure ExactOn (a b : Int64) : Prop where
  sum : ∃ w, applySymbol "+" (.int a) (.int b) = .ok (.int w) ∧ Wraps (a.toInt + b.toInt) w
  difference : ∃ w, applySymbol "-" (.int a) (.int b) = .ok (.int w) ∧ Wraps (a.toInt - b.toInt) w
  product : ∃ w, applySymbol "*" (.int a) (.int b) = .ok (.int w) ∧ Wraps (a.toInt * b.toInt) w
  division : b ≠ 0 → ∃ q r, applySymbol "/" (.int a) (.int b) = .ok (.int q) ∧
    applySymbol "%" (.int a) (.int b) = .ok (.int r) ∧
      DividesInto a.toInt b.toInt q.toInt r.toInt
  byZero : b = 0 → applySymbol "/" (.int a) (.int b) = .error .divisionByZero ∧
    applySymbol "%" (.int a) (.int b) = .error .divisionByZero
  less : applySymbol "<" (.int a) (.int b) = .ok (.int (if a.toInt < b.toInt then 1 else 0))
  greater : applySymbol ">" (.int a) (.int b) = .ok (.int (if a.toInt > b.toInt then 1 else 0))
  atMost : applySymbol "<=" (.int a) (.int b) = .ok (.int (if a.toInt ≤ b.toInt then 1 else 0))
  atLeast : applySymbol ">=" (.int a) (.int b) = .ok (.int (if a.toInt ≥ b.toInt then 1 else 0))
  equal : applySymbol "==" (.int a) (.int b) = .ok (.int (if a.toInt = b.toInt then 1 else 0))
  unequal : applySymbol "!=" (.int a) (.int b) = .ok (.int (if a.toInt ≠ b.toInt then 1 else 0))

/-! ## Words -/

theorem wraps_ofInt (z : ℤ) : Wraps z (.ofInt z) := by
  intro x
  have hsize : (2 ^ 64 : ℤ) = ((2 ^ 64 : ℕ) : ℤ) := by norm_num
  rw [eq_comm, Int64.ofInt_eq_iff_bmod_eq_toInt, Int.ModEq, hsize]
  constructor
  · intro h
    rw [← Int.emod_bmod, ← h, Int.emod_bmod]
    exact x.toInt_bmod
  · intro h
    rw [← h, Int.bmod_emod]

theorem toInt_ofInt_modEq (z : ℤ) : (Int64.ofInt z).toInt ≡ z [ZMOD 2 ^ 64] :=
  (wraps_ofInt z _).mpr rfl

/-- A quotient of words is a word, with one exception. -/
theorem toInt_ofInt_tdiv (a b : Int64) (h : ¬ (a.toInt = -2 ^ 63 ∧ b.toInt = -1)) :
    (Int64.ofInt (a.toInt.tdiv b.toInt)).toInt = a.toInt.tdiv b.toInt := by
  have hlow := a.le_toInt
  have hhigh := a.toInt_lt
  by_cases hneg : b.toInt = -1
  · have hquotient : a.toInt.tdiv b.toInt = -a.toInt := by rw [hneg, Int.tdiv_neg, Int.tdiv_one]
    rw [hquotient]
    exact Int64.toInt_ofInt_of_le (by omega) (by omega)
  by_cases hone : b.toInt = 1
  · rw [hone, Int.tdiv_one, Int64.ofInt_toInt]
  · -- Any other divisor at least halves the dividend, or is zero.
    have hhalf : a.toInt.natAbs / b.toInt.natAbs ≤ a.toInt.natAbs / 2 := by
      rcases Nat.eq_zero_or_pos b.toInt.natAbs with hzero | hpos
      · simp [hzero]
      · exact Nat.div_le_div_left (by omega) (by decide)
    have hquotient : (a.toInt.tdiv b.toInt).natAbs = a.toInt.natAbs / b.toInt.natAbs :=
      Int.natAbs_tdiv a.toInt b.toInt
    exact Int64.toInt_ofInt_of_le (by omega) (by omega)

/-- A remainder of words is a word. -/
theorem toInt_ofInt_tmod (a b : Int64) :
    (Int64.ofInt (a.toInt.tmod b.toInt)).toInt = a.toInt.tmod b.toInt := by
  rw [← Int64.toInt_mod, Int64.ofInt_toInt]

theorem dividesInto_words (a b : Int64) (hb : b.toInt ≠ 0) :
    DividesInto a.toInt b.toInt (Int64.ofInt (a.toInt.tdiv b.toInt)).toInt
      (Int64.ofInt (a.toInt.tmod b.toInt)).toInt := by
  rw [toInt_ofInt_tmod]
  exact
    { congruent := by
        have hsum : a.toInt.tdiv b.toInt * b.toInt + a.toInt.tmod b.toInt = a.toInt := by
          rw [Int.mul_comm, Int.mul_tdiv_add_tmod]
        have hmod := ((toInt_ofInt_modEq (a.toInt.tdiv b.toInt)).mul_right b.toInt).add_right
          (a.toInt.tmod b.toInt)
        rwa [hsum] at hmod
      smaller := by
        rw [Int.abs_eq_natAbs, Int.abs_eq_natAbs, Int.natAbs_tmod]
        exact_mod_cast Nat.mod_lt _ (Int.natAbs_pos.mpr hb)
      sign := by
        rw [Int.sign_tmod]
        by_cases hdvd : b.toInt ∣ a.toInt
        · exact .inl (Int.tmod_eq_zero_of_dvd hdvd)
        · exact .inr (if_neg hdvd)
      truncated := fun h => by rw [toInt_ofInt_tdiv a b h, towardZero_div]
      wrapped := fun ha hb => by
        rw [ha, hb]
        decide }

/-- The operators are exact on all integers. -/
theorem exactOn_words (a b : Int64) : ExactOn a b := by
  have hzero : b.toInt = 0 ↔ b = 0 := by rw [← Int64.toInt_zero, Int64.toInt_inj]
  have hsign (rank : Nat) (sign : String) (h : sign ∈ Grammar.signs rank) :
      applySymbol sign (.int a) (.int b) = wordResult (joinWords sign a b) :=
    IsOperator.applySymbol_int ⟨rank, sign, h, rfl⟩ a b
  exact
    { sum := ⟨_, hsign 2 "+" (by decide), wraps_ofInt _⟩
      difference := ⟨_, hsign 2 "-" (by decide), wraps_ofInt _⟩
      product := ⟨_, hsign 1 "*" (by decide), wraps_ofInt _⟩
      division := fun hb => by
        have hb : b.toInt ≠ 0 := fun h => hb (hzero.mp h)
        have hquotient : joinWords "/" a b = some (.ofInt (a.toInt.tdiv b.toInt)) := if_neg hb
        have hremainder : joinWords "%" a b = some (.ofInt (a.toInt.tmod b.toInt)) := if_neg hb
        refine ⟨_, _, ?_, ?_, dividesInto_words a b hb⟩
        · rw [hsign 1 "/" (by decide), hquotient]
          rfl
        · rw [hsign 1 "%" (by decide), hremainder]
          rfl
      byZero := fun hb => by
        have hb : b.toInt = 0 := hzero.mpr hb
        have hquotient : joinWords "/" a b = none := if_pos hb
        have hremainder : joinWords "%" a b = none := if_pos hb
        rw [hsign 1 "/" (by decide), hsign 1 "%" (by decide), hquotient, hremainder]
        exact ⟨rfl, rfl⟩
      less := hsign 3 "<" (by decide)
      greater := hsign 3 ">" (by decide)
      atMost := hsign 3 "<=" (by decide)
      atLeast := hsign 3 ">=" (by decide)
      equal := hsign 3 "==" (by decide)
      unequal := hsign 3 "!=" (by decide) }

/-- The least integer over minus one is no word: it wraps around to itself and leaves nothing. -/
example :
    applySymbol "/" (.int Int64.minValue) (.int (-1)) = .ok (.int Int64.minValue) ∧
      applySymbol "%" (.int Int64.minValue) (.int (-1)) = .ok (.int 0) := by decide

end MiniC
