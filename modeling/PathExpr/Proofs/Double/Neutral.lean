import PathExpr.Operator
import PathExpr.Proofs.Double.Nearest
import PathExpr.Proofs.Double.Sign

set_option autoImplicit false

namespace PathExpr.Double

open Float.Model (Format UnpackedFloat)
open Float.Model.UnpackedFloat

theorem add_zero_left {s : Sign} {u : UnpackedFloat} (notZero : ∀ t, u ≠ .zero t) :
    add Format.binary64 (.zero s) u = u := by
  cases u with
  | zero t => exact absurd rfl (notZero t)
  | notANumber | infinity t | finite t m e positive => rfl

theorem beq_zero_of_unpacked {x : Float} {s : Sign} (isZero : unpacked x = .zero s) :
    (x == 0) = true := by
  show UnpackedFloat.beq (unpacked x) (unpacked 0) = true
  rw [isZero]
  rfl

theorem zero_add_eq {x : Float} (notZero : (x == 0) = false) : 0 + x = x := by
  have parts : ∀ s, unpacked x ≠ .zero s := by
    intro s isZero
    rw [beq_zero_of_unpacked isZero] at notZero
    cases notZero
  have isSum : (0 : Float) + x = packed (add Format.binary64 (unpacked 0) (unpacked x)) := rfl
  have zero : unpacked 0 = .zero .positive := rfl
  rw [isSum, zero, add_zero_left parts, packed_unpacked]

theorem add_zero_eq {x : Float} (notNegative : unpacked x ≠ .zero .negative) : x + 0 = x := by
  have isSum : x + (0 : Float) = packed (add Format.binary64 (unpacked x) (.zero .positive)) := rfl
  have sameParts : add Format.binary64 (unpacked x) (.zero .positive) = unpacked x := by
    cases parts : unpacked x with
    | zero s =>
        cases s with
        | negative => exact absurd parts notNegative
        | positive => rfl
    | notANumber | infinity s | finite s m e positive => rfl
  rw [isSum, sameParts, packed_unpacked]

/-- A mantissa without a part that was cut off. -/
def exactMantissa (m : Nat) : ExtendedMantissa := ExtendedMantissa.ofMantissaAndAccuracy m .exact

theorem shiftRight_exactMantissa (m n : Nat) :
    exactMantissa (m * 2 ^ n) >>> n = exactMantissa m := by
  induction n generalizing m with
  | zero =>
      rw [Nat.pow_zero, Nat.mul_one]
      rfl
  | succ n ih =>
      show (exactMantissa (m * 2 ^ (n + 1)) >>> n).shiftRightOne = _
      have even : m * 2 ^ (n + 1) = m * 2 * 2 ^ n := by rw [Nat.pow_succ', Nat.mul_assoc]
      rw [even, ih]
      show ExtendedMantissa.mk (m * 2 / 2) (m * 2 % 2 != 0) (false || false) = _
      rw [Nat.mul_div_cancel m (by decide), Nat.mul_mod_left]
      rfl

theorem shiftToTargetExponent_exact (m : Nat) (e : Int) {n : Nat}
    (isShift : targetShift (m * 2 ^ n) e = n) :
    shiftToTargetExponent Format.binary64 (m * 2 ^ n) e .exact = (exactMantissa m, e + n) := by
  show (exactMantissa (m * 2 ^ n) >>> targetShift (m * 2 ^ n) e,
    e + (targetShift (m * 2 ^ n) e : Int)) = _
  rw [isShift, shiftRight_exactMantissa]

/-- Rounding takes back a shift that moved no bit out of its place. -/
theorem roundWithAccuracy_shifted (s : Sign) {m n : Nat} {e : Int} (positive : 0 < m)
    (isShift : targetShift (m * 2 ^ n) e = n) (isTarget : targetShift m (e + n) = 0) :
    roundWithAccuracy Format.binary64 s (m * 2 ^ n) e .exact = .finite s m (e + n) positive := by
  have second : shiftToTargetExponent Format.binary64 m (e + n) .exact =
      (exactMantissa m, e + n) := by
    have unshifted := shiftToTargetExponent_exact m (e + n) (n := 0)
      (by rw [Nat.pow_zero, Nat.mul_one, isTarget])
    rw [Nat.pow_zero, Nat.mul_one] at unshifted
    rw [unshifted, Int.natCast_zero, Int.add_zero]
  unfold roundWithAccuracy
  rw [shiftToTargetExponent_exact m e isShift]
  dsimp only
  have rounded : (exactMantissa m).roundedMantissa = m := rfl
  rw [rounded, second]
  exact dif_neg (Nat.ne_of_gt positive)

/-- The parts of a double need no shift: its mantissa has all 53 bits or the least exponent. -/
theorem targetShift_unpack {b : BitVec Format.binary64.numBits} {s : Sign} {m : Nat} {e : Int}
    {positive : 0 < m} (parts : unpack Format.binary64 b = .finite s m e positive) :
    targetShift m e = 0 ∧ targetShift (m * 2 ^ 52) (e - 52) = 52 := by
  have bits : (m * 2 ^ 52).log2 = m.log2 + 52 :=
    log2_mul_two_pow (Nat.log2_self_le (Nat.ne_of_gt positive)) Nat.lt_log2_self 52
  have full : m.log2 = 52 ∧ -1074 ≤ e ∨ m.log2 < 53 ∧ e = -1074 := by
    have below : (unpackMantissa b).toNat < 2 ^ 52 := (unpackMantissa b).isLt
    have isSum : (1#1 ++ unpackMantissa b).toNat = 2 ^ 52 + (unpackMantissa b).toNat := by
      rw [BitVec.toNat_append, ← Nat.shiftLeft_add_eq_or_of_lt (unpackMantissa b).isLt]
      rfl
    rcases unpack_cases b with ⟨-, -, same⟩ | ⟨-, -, same⟩ | ⟨-, -, same⟩ | ⟨-, -, _, same⟩ |
      ⟨-, notFirst, _, same⟩
    · rw [same] at parts
      cases parts
    · rw [same] at parts
      cases parts
    · rw [same] at parts
      cases parts
    · rw [same] at parts
      cases parts
      right
      exact ⟨(Nat.log2_lt (Nat.ne_of_gt positive)).2 (by omega), rfl⟩
    · have exponent : (unpackExponent b).toNat ≠ 0 :=
        fun zero => notFirst (BitVec.eq_of_toNat_eq zero)
      rw [same] at parts
      cases parts
      left
      rw [isSum] at positive ⊢
      have lower := (Nat.le_log2 (Nat.ne_of_gt positive) (k := 52)).2 (by omega)
      have upper := (Nat.log2_lt (Nat.ne_of_gt positive) (k := 53)).2 (by omega)
      omega
  unfold targetShift
  rw [bits]
  omega

/-- The mantissa is shifted up by the bits of one and down again, and no bit is lost on the way. -/
theorem mul_one_left {b : BitVec Format.binary64.numBits} (positive : 0 < 2 ^ 52) :
    mul Format.binary64 (.finite .positive (2 ^ 52) (-52) positive) (unpack Format.binary64 b) =
      unpack Format.binary64 b := by
  have unsigned : ∀ s : Sign, .positive * s = s := by
    intro s
    cases s <;> rfl
  cases parts : unpack Format.binary64 b with
  | notANumber => rfl
  | infinity s => exact congrArg UnpackedFloat.infinity (unsigned s)
  | zero s => exact congrArg UnpackedFloat.zero (unsigned s)
  | finite s m e positive =>
      obtain ⟨isTarget, isShift⟩ := targetShift_unpack parts
      have restored : e - 52 + (52 : Nat) = e := by omega
      show roundWithAccuracy Format.binary64 (.positive * s) (2 ^ 52 * m) (-52 + e) .exact = _
      rw [unsigned, Nat.mul_comm, show -52 + e = e - 52 by omega,
        roundWithAccuracy_shifted s positive isShift (by rw [restored, isTarget])]
      exact congrArg (fun scale => UnpackedFloat.finite s m scale positive) restored

theorem one_mul_eq (x : Float) : 1 * x = x := by
  have isProduct : (1 : Float) * x = packed (mul Format.binary64 (unpacked 1) (unpacked x)) := rfl
  have one : unpacked 1 = .finite .positive (2 ^ 52) (-52) (by decide) := rfl
  rw [isProduct, one]
  unfold unpacked
  rw [mul_one_left]
  exact packed_unpacked x

theorem mul_comm_unpacked (u v : UnpackedFloat) :
    mul Format.binary64 u v = mul Format.binary64 v u := by
  have signs : ∀ s t : Sign, s * t = t * s := by
    intro s t
    cases s <;> cases t <;> rfl
  cases u with
  | notANumber => cases v <;> rfl
  | infinity s =>
      cases v with
      | notANumber | zero t => rfl
      | infinity t | finite t n d positive => exact congrArg UnpackedFloat.infinity (signs s t)
  | zero s =>
      cases v with
      | notANumber | infinity t => rfl
      | zero t | finite t n d positive => exact congrArg UnpackedFloat.zero (signs s t)
  | finite s m e positive =>
      cases v with
      | notANumber => rfl
      | infinity t => exact congrArg UnpackedFloat.infinity (signs s t)
      | zero t => exact congrArg UnpackedFloat.zero (signs s t)
      | finite t n d positive' =>
          show roundWithAccuracy Format.binary64 (s * t) (m * n) (e + d) .exact =
            roundWithAccuracy Format.binary64 (t * s) (n * m) (d + e) .exact
          rw [signs, Nat.mul_comm, Int.add_comm]

theorem mul_one_eq (x : Float) : x * 1 = x := by
  have commutes : x * 1 = 1 * x := congrArg packed (mul_comm_unpacked (unpacked x) (unpacked 1))
  rw [commutes, one_mul_eq]

end PathExpr.Double
