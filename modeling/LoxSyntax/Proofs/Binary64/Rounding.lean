import Mathlib.Algebra.Group.Nat.Defs
import LoxSyntax.Binary64.Basic

/-!
# Rounding

The magnitude nearest to a quotient depends on the quotient alone (`nearestMagnitude_mul`), grows
with it (`nearestMagnitude_mono`), and is the magnitude that the quotient stands for if there is
one (`nearestMagnitude_of_units`).
-/

namespace LoxSyntax.Binary64

theorem roundHalfEven_mul
    {factor : Nat} (positive : 0 < factor) (numerator denominator : Nat) :
    roundHalfEven (numerator * factor) (denominator * factor) =
      roundHalfEven numerator denominator := by
  have less :
      2 * (numerator % denominator * factor) < denominator * factor ↔
        2 * (numerator % denominator) < denominator := by
    rw [← Nat.mul_assoc, Nat.mul_lt_mul_right positive]
  have equal :
      2 * (numerator % denominator * factor) = denominator * factor ↔
        2 * (numerator % denominator) = denominator := by
    rw [← Nat.mul_assoc, Nat.mul_left_inj (Nat.ne_of_gt positive)]
  simp only [roundHalfEven, Nat.mul_div_mul_right _ _ positive, Nat.mul_mod_mul_right, less,
    equal]

theorem roundHalfEven_mul_self
    {denominator : Nat} (positive : 0 < denominator) (quotient : Nat) :
    roundHalfEven (quotient * denominator) denominator = quotient := by
  simp only [roundHalfEven, Nat.mul_div_cancel _ positive, Nat.mul_mod_left]
  rw [if_pos (Or.inl positive)]

theorem roundHalfEven_mono
    {lower upper : Nat} (le : lower ≤ upper) (denominator : Nat) :
    roundHalfEven lower denominator ≤ roundHalfEven upper denominator := by
  have quotients : lower / denominator ≤ upper / denominator := Nat.div_le_div_right le
  have lowerSplit := Nat.div_add_mod lower denominator
  have upperSplit := Nat.div_add_mod upper denominator
  simp only [roundHalfEven]
  by_cases same : lower / denominator = upper / denominator
  · rw [same] at lowerSplit ⊢
    split <;> split <;> omega
  · split <;> split <;> omega

theorem roundHalfEven_le
    {numerator denominator bound : Nat} (positive : 0 < denominator)
    (le : numerator ≤ bound * denominator) :
    roundHalfEven numerator denominator ≤ bound := by
  have rounds := roundHalfEven_mono le denominator
  rw [roundHalfEven_mul_self positive] at rounds
  exact rounds

theorem le_roundHalfEven
    {numerator denominator bound : Nat} (positive : 0 < denominator)
    (le : bound * denominator ≤ numerator) :
    bound ≤ roundHalfEven numerator denominator := by
  have rounds := roundHalfEven_mono le denominator
  rw [roundHalfEven_mul_self positive] at rounds
  exact rounds

/-- How many bits of a whole number do not belong to its significand. -/
def surplus (number : Nat) : Nat :=
  number.log2 - 52

/-- The magnitude nearest to a quotient of steps of `2 ^ -1074`, if it is not too large. -/
def nearestStep (numerator denominator : Nat) : Nat :=
  let shift := surplus (numerator / denominator)
  shift * 2 ^ 52 + roundHalfEven numerator (denominator * 2 ^ shift)

theorem nearestMagnitude_eq (numerator denominator : Nat) :
    nearestMagnitude numerator denominator =
      min (nearestStep (numerator * Nat.pow 2 1074) denominator) infiniteMagnitude :=
  rfl

theorem nearestStep_mul
    {factor : Nat} (positive : 0 < factor) (numerator denominator : Nat) :
    nearestStep (numerator * factor) (denominator * factor) =
      nearestStep numerator denominator := by
  simp only [nearestStep, Nat.mul_div_mul_right _ _ positive]
  rw [Nat.mul_right_comm, roundHalfEven_mul positive]

theorem surplus_mono {lower upper : Nat} (le : lower ≤ upper) : surplus lower ≤ surplus upper := by
  have logs : lower.log2 ≤ upper.log2 := by
    by_cases isZero : lower = 0
    · rw [isZero]
      exact Nat.zero_le _
    · rw [Nat.le_log2 (by omega)]
      exact Nat.le_trans (Nat.log2_self_le isZero) le
  exact Nat.sub_le_sub_right logs 52

/-- A significand has at most 53 bits before it is rounded. -/
theorem le_mul_surplus (numerator : Nat) {denominator : Nat} (positive : 0 < denominator) :
    numerator ≤ 2 ^ 53 * (denominator * 2 ^ surplus (numerator / denominator)) := by
  have below : numerator / denominator < 2 ^ (53 + surplus (numerator / denominator)) := by
    refine Nat.lt_of_lt_of_le Nat.lt_log2_self (Nat.pow_le_pow_right (by decide) ?_)
    unfold surplus
    omega
  have bound := (Nat.div_lt_iff_lt_mul positive).1 below
  rw [Nat.pow_add, Nat.mul_assoc, Nat.mul_comm _ denominator] at bound
  exact Nat.le_of_lt bound

/-- A significand that is cut has 53 bits. -/
theorem mul_surplus_le
    {numerator denominator : Nat} (positive : 0 < denominator)
    (isCut : 0 < surplus (numerator / denominator)) :
    2 ^ 52 * (denominator * 2 ^ surplus (numerator / denominator)) ≤ numerator := by
  have bits : 52 + surplus (numerator / denominator) = (numerator / denominator).log2 := by
    unfold surplus at isCut ⊢
    omega
  have notZero : numerator / denominator ≠ 0 := by
    intro isZero
    rw [isZero] at isCut
    exact absurd isCut (by decide)
  have above : 2 ^ (52 + surplus (numerator / denominator)) ≤ numerator / denominator := by
    rw [bits]
    exact Nat.log2_self_le notZero
  have bound := (Nat.le_div_iff_mul_le positive).1 above
  rw [Nat.pow_add, Nat.mul_assoc, Nat.mul_comm _ denominator] at bound
  exact bound

theorem nearestStep_mono
    {lower upper denominator : Nat} (positive : 0 < denominator) (le : lower ≤ upper) :
    nearestStep lower denominator ≤ nearestStep upper denominator := by
  have shifts : surplus (lower / denominator) ≤ surplus (upper / denominator) :=
    surplus_mono (Nat.div_le_div_right le)
  simp only [nearestStep]
  by_cases same : surplus (lower / denominator) = surplus (upper / denominator)
  · rw [same]
    exact Nat.add_le_add_left (roundHalfEven_mono le _) _
  · have lowerBound :=
      roundHalfEven_le (Nat.mul_pos positive (Nat.two_pow_pos _)) (le_mul_surplus lower positive)
    have upperBound :=
      le_roundHalfEven (Nat.mul_pos positive (Nat.two_pow_pos _))
        (mul_surplus_le positive (by omega : 0 < surplus (upper / denominator)))
    omega

theorem nearestMagnitude_mul
    {factor : Nat} (positive : 0 < factor) (numerator denominator : Nat) :
    nearestMagnitude (numerator * factor) (denominator * factor) =
      nearestMagnitude numerator denominator := by
  rw [nearestMagnitude_eq, nearestMagnitude_eq, Nat.mul_right_comm, nearestStep_mul positive]

/-- Equal quotients are rounded alike. -/
theorem nearestMagnitude_congr
    {numerator denominator otherNumerator otherDenominator : Nat}
    (positive : 0 < denominator) (otherPositive : 0 < otherDenominator)
    (equality : numerator * otherDenominator = otherNumerator * denominator) :
    nearestMagnitude numerator denominator =
      nearestMagnitude otherNumerator otherDenominator := by
  rw [← nearestMagnitude_mul otherPositive, equality, Nat.mul_comm denominator,
    nearestMagnitude_mul positive]

theorem nearestMagnitude_mono
    {lower upper denominator : Nat} (positive : 0 < denominator) (le : lower ≤ upper) :
    nearestMagnitude lower denominator ≤ nearestMagnitude upper denominator := by
  have steps := nearestStep_mono positive (Nat.mul_le_mul_right (Nat.pow 2 1074) le)
  rw [nearestMagnitude_eq, nearestMagnitude_eq]
  omega

theorem units_of_lt {magnitude : Nat} (small : magnitude < 2 ^ 52) :
    units magnitude = magnitude :=
  if_pos small

theorem units_add
    {significand : Nat} (small : significand < 2 ^ 52) (shift : Nat) :
    units ((shift + 1) * 2 ^ 52 + significand) = (2 ^ 52 + significand) * 2 ^ shift := by
  have large : ¬ (shift + 1) * 2 ^ 52 + significand < 2 ^ 52 := by omega
  have exponent : ((shift + 1) * 2 ^ 52 + significand) / 2 ^ 52 = shift + 1 := by omega
  have kept : ((shift + 1) * 2 ^ 52 + significand) % 2 ^ 52 = significand := by omega
  rw [units]
  simp only [Nat.pow_eq, if_neg large, exponent, kept, Nat.add_sub_cancel]

/-- A magnitude is that of a whole number below `2 ^ 52`, or has an exponent and a significand
whose leading bit is not stored. -/
theorem small_or_exists_shift (magnitude : Nat) :
    magnitude < 2 ^ 52 ∨
      ∃ shift significand, significand < 2 ^ 52 ∧
        magnitude = (shift + 1) * 2 ^ 52 + significand := by
  by_cases small : magnitude < 2 ^ 52
  · exact Or.inl small
  · refine Or.inr ⟨magnitude / 2 ^ 52 - 1, magnitude % 2 ^ 52, ?_, ?_⟩
    · exact Nat.mod_lt _ (by decide)
    · omega

theorem surplus_units_add
    {significand : Nat} (small : significand < 2 ^ 52) (shift : Nat) :
    surplus ((2 ^ 52 + significand) * 2 ^ shift) = shift := by
  have notZero : (2 ^ 52 + significand) * 2 ^ shift ≠ 0 :=
    Nat.mul_ne_zero (by omega) (Nat.ne_of_gt (Nat.two_pow_pos shift))
  have bits : ((2 ^ 52 + significand) * 2 ^ shift).log2 = 52 + shift := by
    rw [Nat.log2_eq_iff notZero, Nat.pow_add, show 52 + shift + 1 = 53 + shift by omega,
      Nat.pow_add, Nat.mul_lt_mul_right (Nat.two_pow_pos shift)]
    exact ⟨Nat.mul_le_mul_right _ (by omega), by omega⟩
  rw [surplus, bits, Nat.add_sub_cancel_left]

/-- A magnitude is what its own steps are rounded to. -/
theorem nearestStep_units (magnitude : Nat) {denominator : Nat} (positive : 0 < denominator) :
    nearestStep (units magnitude * denominator) denominator = magnitude := by
  rw [nearestStep, Nat.mul_div_cancel _ positive]
  rcases small_or_exists_shift magnitude with small | ⟨shift, significand, small, rfl⟩
  · have noShift : surplus magnitude = 0 := by
      by_cases isZero : magnitude = 0
      · rw [isZero]
        decide
      · have bits := (Nat.log2_lt isZero).2 small
        unfold surplus
        omega
    rw [units_of_lt small, noShift, Nat.pow_zero, Nat.mul_one, roundHalfEven_mul_self positive]
    omega
  · rw [units_add small, surplus_units_add small, Nat.mul_assoc, Nat.mul_comm (2 ^ shift),
      roundHalfEven_mul_self (Nat.mul_pos positive (Nat.two_pow_pos shift))]
    omega

/-- A quotient that a finite magnitude stands for is rounded to it. -/
theorem nearestMagnitude_of_units
    {magnitude numerator denominator : Nat} (finite : magnitude ≤ infiniteMagnitude)
    (positive : 0 < denominator)
    (exact : numerator * Nat.pow 2 1074 = units magnitude * denominator) :
    nearestMagnitude numerator denominator = magnitude := by
  rw [nearestMagnitude_eq, exact, nearestStep_units magnitude positive, Nat.min_eq_left finite]

end LoxSyntax.Binary64
