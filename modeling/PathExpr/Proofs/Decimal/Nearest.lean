import Mathlib.Algebra.Group.Nat.Defs
import PathExpr.Decimal.Layout
import PathExpr.Proofs.Double.Nearest

set_option autoImplicit false

namespace PathExpr.Decimal

theorem denominator_pos (d : Decimal) : 0 < d.denominator := Nat.pow_pos (by decide)

theorem two_pow_le_ten_pow (n : Nat) : 2 ^ (3 * n) ≤ 10 ^ n := by
  rw [Nat.pow_mul]
  exact Nat.pow_le_pow_left (by decide) n

/-- A decimal that is taken for infinite without expanding it is. -/
theorem nearest_of_large {d : Decimal} (digits : d.digits ≠ 0) (large : 400 < d.exponent) :
    Double.nearest d.numerator d.denominator = Double.infiniteMagnitude := by
  have noDenominator : d.denominator = 1 := by
    unfold denominator
    rw [show (-d.exponent).toNat = 0 by omega]
  have many : 2099 ≤ 3 * d.exponent.toNat + 1074 := by omega
  apply Double.nearest_eq_infinite many
  rw [noDenominator, Nat.div_one]
  calc 2 ^ (3 * d.exponent.toNat + 1074) = 2 ^ (3 * d.exponent.toNat) * Double.unitsPerOne :=
        Double.two_pow_add_eq _
    _ ≤ Nat.pow 10 d.exponent.toNat * Double.unitsPerOne :=
        Nat.mul_le_mul_right _ (two_pow_le_ten_pow _)
    _ ≤ d.digits * Nat.pow 10 d.exponent.toNat * Double.unitsPerOne := by
        rw [Nat.mul_assoc]
        exact Nat.le_mul_of_pos_left _ (Nat.pos_of_ne_zero digits)

/-- A decimal that is taken for zero without expanding it is. -/
theorem nearest_of_small {d : Decimal} (small : d.exponent < -(400 + d.digits.log2 : Int)) :
    Double.nearest d.numerator d.denominator = 0 := by
  have noFactor : d.numerator = d.digits * Double.unitsPerOne := by
    unfold numerator
    rw [show d.exponent.toNat = 0 by omega]
    show d.digits * 1 * _ = _
    rw [Nat.mul_one]
  apply Double.nearest_eq_zero
  calc 2 * d.numerator = 2 * d.digits * Double.unitsPerOne := by rw [noFactor, Nat.mul_assoc]
    _ < 2 * 2 ^ (d.digits.log2 + 1) * Double.unitsPerOne := by
        apply (Nat.mul_lt_mul_right Double.unitsPerOne_pos).2
        exact Nat.mul_lt_mul_of_pos_left Nat.lt_log2_self (by decide)
    _ = 2 ^ (d.digits.log2 + 1 + 1 + 1074) := by
        rw [Double.two_pow_add_eq, Nat.pow_succ 2 (d.digits.log2 + 1), Nat.mul_comm 2]
    _ ≤ 2 ^ (3 * (-d.exponent).toNat) := Nat.pow_le_pow_right (by decide) (by omega)
    _ ≤ d.denominator := two_pow_le_ten_pow _

/-- What is not expanded would round to zero or to infinity anyway. -/
theorem nearest_eq (d : Decimal) : d.nearest = Double.nearest d.numerator d.denominator := by
  unfold nearest
  by_cases zero : d.digits = 0
  · have noNumerator : d.numerator = 0 := by
      unfold numerator
      rw [zero, Nat.zero_mul, Nat.zero_mul]
    rw [if_pos zero, noNumerator]
    exact (Double.nearest_eq_zero d.denominator_pos).symm
  · rw [if_neg zero]
    by_cases large : 400 < d.exponent
    · rw [if_pos large, nearest_of_large zero large]
    · rw [if_neg large]
      by_cases small : d.exponent < -(400 + d.digits.log2 : Int)
      · rw [if_pos small, nearest_of_small small]
      · rw [if_neg small]

/-- Zeros at the end of the digits can be counted by the exponent. -/
theorem nearest_mul_ten_pow (digits zeros : Nat) (exponent : Int) :
    nearest ⟨digits * 10 ^ zeros, exponent⟩ = nearest ⟨digits, exponent + zeros⟩ := by
  rw [nearest_eq, nearest_eq]
  apply Double.nearest_eq_of_mul_eq (denominator_pos _) (denominator_pos _)
  unfold numerator denominator
  dsimp only
  generalize Double.unitsPerOne = units
  have powers : zeros + exponent.toNat + (-(exponent + zeros)).toNat =
      (exponent + zeros).toNat + (-exponent).toNat := by omega
  have tens : 10 ^ zeros * 10 ^ exponent.toNat * 10 ^ (-(exponent + zeros)).toNat =
      10 ^ (exponent + zeros).toNat * 10 ^ (-exponent).toNat := by
    rw [← Nat.pow_add, ← Nat.pow_add, powers, Nat.pow_add]
  show digits * 10 ^ zeros * 10 ^ exponent.toNat * units * 10 ^ (-(exponent + zeros)).toNat =
    digits * 10 ^ (exponent + zeros).toNat * units * 10 ^ (-exponent).toNat
  calc digits * 10 ^ zeros * 10 ^ exponent.toNat * units * 10 ^ (-(exponent + zeros)).toNat
      = digits * units *
          (10 ^ zeros * 10 ^ exponent.toNat * 10 ^ (-(exponent + zeros)).toNat) := by ac_rfl
    _ = digits * units * (10 ^ (exponent + zeros).toNat * 10 ^ (-exponent).toNat) := by rw [tens]
    _ = _ := by ac_rfl

/-- A fraction of `n` binary places is a decimal of `n` places. -/
theorem nearest_mul_five_pow (units : Nat) {n : Nat} {exponent : Int}
    (unit : Double.unitsPerOne = 2 ^ n) (places : exponent = -(n : Int)) :
    nearest ⟨units * Nat.pow 5 n, exponent⟩ = Double.nearest units 1 := by
  rw [nearest_eq]
  apply Double.nearest_eq_of_mul_eq (denominator_pos _) Nat.one_pos
  unfold numerator denominator
  dsimp only
  rw [places, Int.neg_neg, Int.toNat_natCast, Int.toNat_neg_natCast, unit]
  show units * 5 ^ n * 10 ^ 0 * 2 ^ n * 1 = units * 10 ^ n
  rw [Nat.pow_zero, Nat.mul_one, Nat.mul_one, Nat.mul_assoc, ← Nat.mul_pow]

theorem nearest_exact {m : Nat} (finite : m < Double.infiniteMagnitude) :
    (exact m).nearest = m := by
  -- With a variable for the number of places no power is ever computed.
  obtain ⟨n, isPlaces⟩ : ∃ n : Nat, n = 1074 := ⟨1074, rfl⟩
  have unit : Double.unitsPerOne = 2 ^ n := by rw [isPlaces, Double.unitsPerOne_eq]
  have places : (-1074 : Int) = -(n : Int) := by
    rw [isPlaces]
    rfl
  unfold exact
  rw [← isPlaces, nearest_mul_five_pow _ unit places, Double.nearest_units finite]

theorem nearest_shortest (tie : Tie) {m : Nat} (finite : m < Double.infiniteMagnitude) :
    (shortest tie m).nearest = m := by
  unfold shortest
  cases found : (List.range 17).findSome? fun (n : Nat) => neighbour? tie m (scale m - (n + 1)) with
  | none => exact nearest_exact finite
  | some d =>
      obtain ⟨n, -, isNeighbour⟩ := List.exists_of_findSome?_eq_some found
      exact eq_of_beq (readsBack_of_neighbour? isNeighbour)

theorem eq_append_replicate (x : Char) (chars : List Char) :
    ∃ front, chars =
      front ++ List.replicate (chars.reverse.takeWhile (· == x)).length x := by
  let tail := chars.reverse.takeWhile (· == x)
  refine ⟨(chars.reverse.dropWhile (· == x)).reverse, ?_⟩
  have same : tail = List.replicate tail.length x := by
    refine List.eq_replicate_iff.2 ⟨rfl, fun c inTail => ?_⟩
    exact eq_of_beq (List.all_eq_true.1 List.all_takeWhile c inTail)
  have whole : chars.reverse = tail ++ chars.reverse.dropWhile (· == x) :=
    List.takeWhile_append_dropWhile.symm
  have reversed := congrArg List.reverse whole
  rw [List.reverse_reverse, List.reverse_append, same, List.reverse_replicate] at reversed
  exact reversed

theorem nearest_strip (d : Decimal) : d.strip.nearest = d.nearest := by
  unfold strip
  dsimp only
  by_cases zero : d.digits = 0
  · rw [if_pos zero]
    unfold nearest
    rw [if_pos zero, if_pos rfl]
  · rw [if_neg zero]
    obtain ⟨front, isAppend⟩ := eq_append_replicate '0' (Nat.toDigits 10 d.digits)
    generalize ((Nat.toDigits 10 d.digits).reverse.takeWhile (· == '0')).length = zeros at *
    have digits : d.digits = Nat.ofDigitChars 10 front 0 * 10 ^ zeros := by
      rw [← @Nat.ofDigitChars_ten_toDigits d.digits, isAppend, Nat.ofDigitChars_append,
        Nat.ofDigitChars_replicate_zero, Nat.mul_comm]
    show nearest ⟨d.digits / 10 ^ zeros, d.exponent + zeros⟩ = nearest ⟨d.digits, d.exponent⟩
    rw [← nearest_mul_ten_pow, digits, Nat.mul_div_cancel _ (Nat.pow_pos (by decide))]

end PathExpr.Decimal
