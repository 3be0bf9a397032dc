import Mathlib.Algebra.Group.Nat.Defs
import PathExpr.Double.Basic

set_option autoImplicit false

namespace PathExpr.Double

theorem unitsPerOne_eq : unitsPerOne = 2 ^ 1074 := by
  unfold unitsPerOne
  generalize 1074 = bits
  exact Nat.one_shiftLeft bits

theorem unitsPerOne_pos : 0 < unitsPerOne := by
  rw [unitsPerOne_eq]
  generalize 1074 = bits
  exact Nat.two_pow_pos bits

theorem two_pow_add_eq (n : Nat) : 2 ^ (n + 1074) = 2 ^ n * unitsPerOne := by
  rw [unitsPerOne_eq]
  generalize 1074 = bits
  exact Nat.pow_add 2 n bits

theorem roundEven_mul_right (num den : Nat) {c : Nat} (positive : 0 < c) :
    roundEven (num * c) (den * c) = roundEven num den := by
  have order : compare (2 * (num * c % (den * c))) (den * c) = compare (2 * (num % den)) den := by
    rw [Nat.mul_mod_mul_right, ← Nat.mul_assoc, Nat.compare_eq_ite_lt, Nat.compare_eq_ite_lt]
    simp only [Nat.mul_lt_mul_right positive]
  unfold roundEven
  rw [order, Nat.mul_div_mul_right num den positive]

theorem nearest_mul_right (num den : Nat) {c : Nat} (positive : 0 < c) :
    nearest (num * c) (den * c) = nearest num den := by
  unfold nearest
  dsimp only
  rw [Nat.mul_div_mul_right num den positive, Nat.shiftLeft_eq, Nat.mul_right_comm,
    roundEven_mul_right _ _ positive, ← Nat.shiftLeft_eq]

theorem nearest_eq_of_mul_eq {num den num' den' : Nat} (positive : 0 < den) (positive' : 0 < den')
    (same : num * den' = num' * den) : nearest num den = nearest num' den' := by
  calc nearest num den = nearest (num * den') (den * den') :=
        (nearest_mul_right num den positive').symm
    _ = nearest (num' * den) (den' * den) := by rw [same, Nat.mul_comm den den']
    _ = nearest num' den' := nearest_mul_right num' den' positive

/-- Less than half of a unit rounds to zero. -/
theorem nearest_eq_zero {num den : Nat} (small : 2 * num < den) : nearest num den = 0 := by
  have below : num < den := by omega
  have order : compare (2 * (num % den)) den = .lt := by
    rw [Nat.mod_eq_of_lt below, Nat.compare_eq_lt]
    exact small
  have shift : (num / den).log2 - 52 = 0 := by
    rw [Nat.div_eq_of_lt below]
    rfl
  unfold nearest
  dsimp only
  rw [shift, Nat.shiftLeft_zero]
  unfold roundEven
  rw [order, Nat.div_eq_of_lt below]
  rfl

theorem nearest_eq_infinite {num den bits : Nat} (many : 2099 ≤ bits)
    (large : 2 ^ bits ≤ num / den) : nearest num den = infiniteMagnitude := by
  have positive : num / den ≠ 0 := Nat.ne_of_gt (Nat.lt_of_lt_of_le (Nat.two_pow_pos bits) large)
  have wide : bits ≤ (num / den).log2 := (Nat.le_log2 positive).2 large
  unfold nearest
  dsimp only
  apply Nat.min_eq_right
  have scaled : 2047 * fractions ≤ ((num / den).log2 - 52) * fractions :=
    Nat.mul_le_mul_right fractions (by omega)
  unfold infiniteMagnitude
  omega

theorem log2_mul_two_pow {a bits : Nat} (lower : 2 ^ bits ≤ a) (upper : a < 2 ^ (bits + 1))
    (shift : Nat) : (a * 2 ^ shift).log2 = bits + shift := by
  have positive : 0 < 2 ^ shift := Nat.two_pow_pos shift
  have someBit : a * 2 ^ shift ≠ 0 :=
    Nat.mul_ne_zero (Nat.ne_of_gt (Nat.lt_of_lt_of_le (Nat.two_pow_pos bits) lower))
      (Nat.ne_of_gt positive)
  have atLeast : bits + shift ≤ (a * 2 ^ shift).log2 := by
    rw [Nat.le_log2 someBit, Nat.pow_add]
    exact Nat.mul_le_mul_right _ lower
  have atMost : (a * 2 ^ shift).log2 < bits + 1 + shift := by
    rw [Nat.log2_lt someBit, Nat.pow_add]
    exact (Nat.mul_lt_mul_right positive).2 upper
  omega

/-- A finite double is nearest to its own units: below the scale it is its fraction, and above it
the shift of the rounding undoes that of the units. -/
theorem nearest_units {m : Nat} (finite : m < infiniteMagnitude) : nearest (units m) 1 = m := by
  have shifted : ∀ shift significand, units m = significand * 2 ^ shift →
      (units m).log2 - 52 = shift → shift * fractions + significand = m →
      nearest (units m) 1 = m := by
    intro shift significand isUnits isShift isMagnitude
    unfold nearest
    dsimp only
    rw [Nat.div_one, isShift, Nat.one_shiftLeft, isUnits,
      roundEven_mul significand _ (Nat.two_pow_pos shift), isMagnitude]
    exact Nat.min_eq_left (Nat.le_of_lt finite)
  by_cases subnormal : m / fractions = 0
  · have isUnits : units m = m := if_pos subnormal
    apply shifted 0 m (by rw [isUnits, Nat.pow_zero, Nat.mul_one])
    · rw [isUnits]
      by_cases zero : m = 0
      · rw [zero]
        rfl
      · have below : m < 2 ^ 52 := by
          unfold fractions at subnormal
          omega
        have short := (Nat.log2_lt zero).2 below
        omega
    · rw [Nat.zero_mul, Nat.zero_add]
  · have isUnits : units m = (fractions + m % fractions) * 2 ^ (m / fractions - 1) := by
      rw [← Nat.shiftLeft_eq]
      exact if_neg subnormal
    apply shifted (m / fractions - 1) (fractions + m % fractions) isUnits
    · have lower : 2 ^ 52 ≤ fractions + m % fractions := Nat.le_add_right _ _
      have upper : fractions + m % fractions < 2 ^ (52 + 1) := by
        unfold fractions
        omega
      rw [isUnits, log2_mul_two_pow lower upper]
      omega
    · unfold fractions at subnormal ⊢
      omega

end PathExpr.Double
