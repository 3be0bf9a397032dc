import Mathlib.Algebra.Group.Nat.Defs
import PathExpr.Proofs.Double.Bits

set_option autoImplicit false

namespace PathExpr.Double

open Float.Model (Format UnpackedFloat totalExponent)
open Float.Model.UnpackedFloat

def unpacked (x : Float) : UnpackedFloat := unpack Format.binary64 x.toBits.toBitVec

def packed (u : UnpackedFloat) : Float := Float.ofModel (Float.Model.pack u)

theorem packed_unpacked (x : Float) : packed (unpacked x) = x := ofBits_toBits x

theorem eq_of_unpacked_eq {x y : Float} (same : unpacked x = unpacked y) : x = y := by
  rw [← packed_unpacked x, same, packed_unpacked]

theorem eq_or_zero_of_beq {x y : Float} (isEqual : (x == y) = true) :
    x = y ∨ ∃ s s', unpacked x = .zero s ∧ unpacked y = .zero s' := by
  have order : UnpackedFloat.compare (unpacked x) (unpacked y) = some .eq := eq_of_beq isEqual
  have same : unpacked x = unpacked y → x = y := eq_of_unpacked_eq
  generalize unpacked x = u at order same
  generalize unpacked y = v at order same
  have sameParts : ∀ {m m' : Nat} {e e' : Int},
      (compare e e').then (compare m m') = .eq → e = e' ∧ m = m' := by
    intro m m' e e' order
    rw [Ordering.then_eq_eq, Std.compare_eq_iff_eq, Std.compare_eq_iff_eq] at order
    exact order
  cases u with
  | notANumber => cases order
  | infinity s =>
      cases v with
      | infinity s' =>
          cases s <;> cases s' <;> first | exact .inl (same rfl) | cases order
      | _ => cases s <;> cases order
  | zero s =>
      cases v with
      | zero s' => exact .inr ⟨s, s', rfl, rfl⟩
      | notANumber => cases order
      | infinity s' => cases s' <;> cases order
      | finite s' _ _ _ => cases s' <;> cases order
  | finite s m e positive =>
      cases v with
      | notANumber => cases s <;> cases order
      | infinity s' => cases s <;> cases s' <;> cases order
      | zero s' => cases s <;> cases order
      | finite s' m' e' positive' =>
          left
          apply same
          cases s <;> cases s'
          · have parts := Option.some.inj order
            rw [Ordering.swap_eq_eq] at parts
            obtain ⟨rfl, rfl⟩ := sameParts parts
            rfl
          · cases order
          · cases order
          · obtain ⟨rfl, rfl⟩ := sameParts (Option.some.inj order)
            rfl

theorem beq_self {x : Float} (isNumber : x.isNaN = false) : (x == x) = true := by
  change (unpacked x).isNaN = false at isNumber
  show UnpackedFloat.beq (unpacked x) (unpacked x) = true
  have sameParts : ∀ (m : Nat) (e : Int), (compare e e).then (compare m m) = .eq := by
    intro m e
    rw [Std.compare_self, Std.compare_self]
    rfl
  cases parts : unpacked x with
  | notANumber =>
      rw [parts] at isNumber
      cases isNumber
  | infinity s => cases s <;> rfl
  | zero s => rfl
  | finite s m e positive =>
      cases s with
      | negative =>
          show (some ((compare e e).then (compare m m)).swap == some .eq) = true
          rw [sameParts]
          rfl
      | positive =>
          show (some ((compare e e).then (compare m m)) == some .eq) = true
          rw [sameParts]
          rfl

theorem unpacked_of_isNaN {x : Float} (isNaN : x.isNaN = true) : unpacked x = .notANumber := by
  change (unpacked x).isNaN = true at isNaN
  cases same : unpacked x with
  | notANumber => rfl
  | _ =>
      rw [same] at isNaN
      cases isNaN

theorem eq_of_isNaN {x y : Float} (isNaN : x.isNaN = true) (isNaN' : y.isNaN = true) : x = y := by
  apply eq_of_unpacked_eq
  rw [unpacked_of_isNaN isNaN, unpacked_of_isNaN isNaN']

theorem mantissa_shiftRight (em : ExtendedMantissa) (n : Nat) :
    (em >>> n).mantissa = em.mantissa / 2 ^ n := by
  induction n with
  | zero => exact (Nat.div_one _).symm
  | succ n ih =>
      show (em >>> n).mantissa / 2 = _
      rw [ih, Nat.div_div_eq_div_mul, Nat.pow_succ]

theorem mantissa_ofMantissaAndAccuracy (m : Nat) (accuracy : Accuracy) :
    (ExtendedMantissa.ofMantissaAndAccuracy m accuracy).mantissa = m := by
  unfold ExtendedMantissa.ofMantissaAndAccuracy
  split <;> rfl

theorem mantissa_le_roundedMantissa (em : ExtendedMantissa) :
    em.mantissa ≤ em.roundedMantissa := by
  unfold ExtendedMantissa.roundedMantissa Accuracy.roundToNearestEven
  split <;> omega

/-- The shift of a mantissa to the exponent it is to have. -/
def targetShift (m : Nat) (e : Int) : Nat :=
  (max ((m.log2 + 1 : Int) + e - 53) (-1074) - e).toNat

theorem shiftToTargetExponent_eq (m : Nat) (e : Int) (accuracy : Accuracy) :
    (shiftToTargetExponent Format.binary64 m e accuracy).1.mantissa = m / 2 ^ targetShift m e ∧
      (shiftToTargetExponent Format.binary64 m e accuracy).2 = e + targetShift m e := by
  constructor
  · show (ExtendedMantissa.ofMantissaAndAccuracy m accuracy >>> targetShift m e).mantissa = _
    rw [mantissa_shiftRight, mantissa_ofMantissaAndAccuracy]
  · rfl

/-- Parts that need no more rounding. -/
def IsRounded : UnpackedFloat → Prop
  | .finite _ m e _ => m < 2 ^ 53 ∧ -1074 ≤ e
  | _ => True

theorem shift_lt (m : Nat) (e : Int) : m / 2 ^ targetShift m e < 2 ^ 53 := by
  have wide : m.log2 + 1 ≤ targetShift m e + 53 := by
    unfold targetShift
    omega
  have below : m < 2 ^ targetShift m e * 2 ^ 53 := by
    rw [← Nat.pow_add]
    exact Nat.lt_of_lt_of_le Nat.lt_log2_self (Nat.pow_le_pow_right (by decide) wide)
  exact Nat.div_lt_of_lt_mul below

theorem shift_exponent (m : Nat) (e : Int) : -1074 ≤ e + targetShift m e := by
  unfold targetShift
  omega

/-- From the least exponent upwards, no more than 53 bits are kept and so none is lost. -/
theorem shift_pos {m : Nat} {e : Int} (positive : 0 < m) (bounded : -1074 ≤ e) :
    0 < m / 2 ^ targetShift m e := by
  have narrow : targetShift m e ≤ m.log2 := by
    unfold targetShift
    omega
  have within : 2 ^ targetShift m e ≤ m := by
    apply Nat.le_trans (Nat.pow_le_pow_right (by decide) narrow)
    exact Nat.log2_self_le (Nat.ne_of_gt positive)
  exact Nat.div_pos within (Nat.two_pow_pos _)

/-- Rounding ends with a shift. -/
theorem roundWithAccuracy_eq (s : Sign) (m : Nat) (e : Int) (accuracy : Accuracy) :
    ∃ m' e', roundWithAccuracy Format.binary64 s m e accuracy =
        (if h : m' / 2 ^ targetShift m' e' = 0 then .zero s
          else .finite s _ (e' + targetShift m' e') (Nat.pos_of_ne_zero h)) ∧
      m / 2 ^ targetShift m e ≤ m' ∧ e' = e + targetShift m e := by
  obtain ⟨firstMantissa, firstExponent⟩ := shiftToTargetExponent_eq m e accuracy
  unfold roundWithAccuracy
  generalize shiftToTargetExponent Format.binary64 m e accuracy = first at *
  obtain ⟨em, e'⟩ := first
  refine ⟨em.roundedMantissa, e', ?_, ?_, firstExponent⟩
  · have further := shiftToTargetExponent_eq em.roundedMantissa e' .exact
    dsimp only
    generalize shiftToTargetExponent Format.binary64 em.roundedMantissa e' .exact = final at *
    obtain ⟨⟨m', roundBit, stickyBit⟩, e''⟩ := final
    obtain ⟨rfl, rfl⟩ := further
    rfl
  · rw [← firstMantissa]
    exact mantissa_le_roundedMantissa em

theorem isRounded_roundWithAccuracy (s : Sign) (m : Nat) (e : Int) (accuracy : Accuracy) :
    IsRounded (roundWithAccuracy Format.binary64 s m e accuracy) := by
  obtain ⟨m', e', isRounded, -⟩ := roundWithAccuracy_eq s m e accuracy
  rw [isRounded]
  by_cases none : m' / 2 ^ targetShift m' e' = 0
  · rw [dif_pos none]
    exact trivial
  · rw [dif_neg none]
    exact ⟨shift_lt m' e', shift_exponent m' e'⟩

theorem roundWithAccuracy_ne_zero (s s' : Sign) {m : Nat} {e : Int} (accuracy : Accuracy)
    (positive : 0 < m) (bounded : -1074 ≤ e) :
    roundWithAccuracy Format.binary64 s m e accuracy ≠ .zero s' := by
  obtain ⟨m', e', isRounded, atLeast, rfl⟩ := roundWithAccuracy_eq s m e accuracy
  have positive' : 0 < m' := Nat.lt_of_lt_of_le (shift_pos positive bounded) atLeast
  have kept := shift_pos positive' (shift_exponent m e)
  rw [isRounded, dif_neg (Nat.ne_of_gt kept)]
  intro isZero
  cases isZero

theorem round_eq (s : Sign) (m : Nat) (e : Int) (bounded : -1074 ≤ e) :
    ∃ n e', round Format.binary64 s m e =
        roundWithAccuracy Format.binary64 s (m <<< n) e' .exact ∧ -1074 ≤ e' := by
  refine ⟨_, _, rfl, ?_⟩
  show -1074 ≤ e - (e - max (totalExponent m e - 53) (-1074)).toNat
  omega

theorem isRounded_normalize {m e : Int} (s : Sign) (bounded : -1074 ≤ e) :
    IsRounded (UnpackedFloat.normalize Format.binary64 m e s) := by
  have rounds : ∀ s n, IsRounded (round Format.binary64 s n e) := by
    intro s n
    obtain ⟨_, _, isRounded, -⟩ := round_eq s n e bounded
    rw [isRounded]
    exact isRounded_roundWithAccuracy _ _ _ _
  unfold UnpackedFloat.normalize
  split
  · exact rounds _ _
  · exact trivial
  · exact rounds _ _

/-- A sum that is zero has the sign that zero is given. -/
theorem eq_of_normalize_eq_zero {m e : Int} {s s' : Sign} (bounded : -1074 ≤ e)
    (isZero : UnpackedFloat.normalize Format.binary64 m e s = .zero s') : s' = s := by
  have rounds : ∀ t n, 0 < n → round Format.binary64 t n e ≠ .zero s' := by
    intro t n positive
    obtain ⟨k, e', isRounded, bounded'⟩ := round_eq t n e bounded
    rw [isRounded, Nat.shiftLeft_eq]
    exact roundWithAccuracy_ne_zero _ _ _ (Nat.mul_pos positive (Nat.two_pow_pos k)) bounded'
  unfold UnpackedFloat.normalize at isZero
  split at isZero
  · rename_i negative
    rw [Int.compare_eq_lt] at negative
    exact absurd isZero (rounds _ _ (by omega))
  · cases isZero
    rfl
  · rename_i positive
    rw [Int.compare_eq_gt] at positive
    exact absurd isZero (rounds _ _ (by omega))

theorem isRounded_unpack (b : BitVec Format.binary64.numBits) :
    IsRounded (unpack Format.binary64 b) := by
  have below : (unpackMantissa b).toNat < 2 ^ 52 := (unpackMantissa b).isLt
  rcases unpack_cases b with ⟨-, -, parts⟩ | ⟨-, -, parts⟩ | ⟨-, -, parts⟩ |
    ⟨-, -, positive, parts⟩ | ⟨-, notFirst, positive, parts⟩
  · rw [parts]
    exact trivial
  · rw [parts]
    exact trivial
  · rw [parts]
    exact trivial
  · rw [parts]
    unfold IsRounded
    omega
  · have exponent : (unpackExponent b).toNat ≠ 0 :=
      fun zero => notFirst (BitVec.eq_of_toNat_eq zero)
    rw [parts]
    constructor
    · exact (1#1 ++ unpackMantissa b).isLt
    · omega

theorem toNat_of_unpack_eq_zero {b : BitVec Format.binary64.numBits} {s : Sign}
    (isZero : unpack Format.binary64 b = .zero s) : b.toNat % 2 ^ 63 = 0 := by
  rcases unpack_cases b with ⟨-, -, parts⟩ | ⟨-, -, parts⟩ | ⟨first, noMantissa, parts⟩ |
    ⟨-, -, positive, parts⟩ | ⟨-, -, positive, parts⟩
  · rw [parts] at isZero
    cases isZero
  · rw [parts] at isZero
    cases isZero
  · have exponent : b.toNat / 2 ^ 52 % 2 ^ 11 = 0 := by
      rw [← toNat_unpackExponent, first]
      rfl
    have mantissa : b.toNat % 2 ^ 52 = 0 := by
      rw [← toNat_unpackMantissa, noMantissa]
      rfl
    omega
  · rw [parts] at isZero
    cases isZero
  · rw [parts] at isZero
    cases isZero

theorem toNat_pack_finite {s : Sign} {m : Nat} {e : Int} {positive : 0 < m}
    (isRounded : IsRounded (.finite s m e positive)) :
    (pack Format.binary64 (.finite s m e positive)).toNat % 2 ^ 63 ≠ 0 := by
  obtain ⟨below, bounded⟩ := isRounded
  unfold pack packedInfinity
  dsimp only
  split
  · rw [toNat_packComponents]
    show (s.toBitVec.toNat * 2 ^ 63 + 2047 * 2 ^ 52 + 0) % 2 ^ 63 ≠ 0
    omega
  · rename_i notLarge
    split
    · have biased : (e + Format.binary64.exponentBias +
          Format.binary64.mantissaBitsWithoutImplicit).toNat = (e + 1075).toNat := by
        show (e + 1023 + 52).toNat = _
        omega
      rw [biased] at notLarge ⊢
      have small : (e + 1075).toNat + 1 < 2 ^ 11 := Nat.lt_of_not_le notLarge
      rw [toNat_packComponents, BitVec.toNat_ofNat, BitVec.toNat_ofNat]
      show (s.toBitVec.toNat * 2 ^ 63 + (e + 1075).toNat % 2 ^ 11 * 2 ^ 52 + m % 2 ^ 52) %
        2 ^ 63 ≠ 0
      omega
    · rename_i short
      have notLong : m.log2 ≠ 52 := fun long => short (congrArg (· + 1) long)
      have narrow : m.log2 < 53 := (Nat.log2_lt (Nat.ne_of_gt positive)).2 below
      have less : m < 2 ^ 52 := (Nat.log2_lt (Nat.ne_of_gt positive)).1 (by omega)
      rw [toNat_packComponents, BitVec.toNat_ofNat]
      show (s.toBitVec.toNat * 2 ^ 63 + 0 * 2 ^ 52 + m % 2 ^ 52) % 2 ^ 63 ≠ 0
      omega

/-- Rounded parts that are not those of a zero are not packed as a zero. -/
theorem eq_zero_of_unpacked_packed {u : UnpackedFloat} {s : Sign} (isRounded : IsRounded u)
    (isZero : unpacked (packed u) = .zero s) : u = .zero s := by
  change unpack Format.binary64 (pack Format.binary64 u) = .zero s at isZero
  cases u with
  | notANumber => cases isZero
  | infinity t =>
      cases t <;> cases isZero
  | zero t =>
      cases t <;> exact isZero
  | finite t m e positive =>
      exact absurd (toNat_of_unpack_eq_zero isZero) (toNat_pack_finite isRounded)

theorem add_finite {s t : Sign} {m n : Nat} {e d : Int} (positive : 0 < m) (positive' : 0 < n)
    (left : IsRounded (.finite s m e positive)) (right : IsRounded (.finite t n d positive')) :
    ∃ (sum c : Int), add Format.binary64 (.finite s m e positive) (.finite t n d positive') =
      UnpackedFloat.normalize Format.binary64 sum c .positive ∧ -1074 ≤ c :=
  ⟨_, _, rfl, Int.le_min.2 ⟨left.2, right.2⟩⟩

theorem isRounded_add {u v : UnpackedFloat} (left : IsRounded u) (right : IsRounded v) :
    IsRounded (add Format.binary64 u v) := by
  cases u with
  | notANumber => exact trivial
  | infinity s =>
      cases v with
      | infinity t => cases s <;> cases t <;> exact trivial
      | _ => exact trivial
  | zero s =>
      cases v with
      | zero t => cases s <;> cases t <;> exact trivial
      | finite t n d positive => exact right
      | _ => exact trivial
  | finite s m e positive =>
      cases v with
      | zero t => exact left
      | finite t n d positive' =>
          obtain ⟨sum, c, isSum, bounded⟩ := add_finite positive positive' left right
          rw [isSum]
          exact isRounded_normalize _ bounded
      | _ => exact trivial

theorem eq_negativeZero_of_add {u v : UnpackedFloat} (left : IsRounded u) (right : IsRounded v)
    (isZero : add Format.binary64 u v = .zero .negative) : u = .zero .negative := by
  cases u with
  | notANumber => cases isZero
  | infinity s =>
      cases v with
      | infinity t => cases s <;> cases t <;> cases isZero
      | _ => cases isZero
  | zero s =>
      cases v with
      | zero t => cases s <;> cases t <;> first | rfl | cases isZero
      | _ => cases isZero
  | finite s m e positive =>
      cases v with
      | finite t n d positive' =>
          obtain ⟨sum, c, isSum, bounded⟩ := add_finite positive positive' left right
          rw [isSum] at isZero
          cases eq_of_normalize_eq_zero bounded isZero
      | _ => cases isZero

/-- A sum is negative zero only if its first term is. -/
theorem unpacked_add_ne {x y : Float} (notNegative : unpacked x ≠ .zero .negative) :
    unpacked (x + y) ≠ .zero .negative := by
  intro isZero
  have left := isRounded_unpack x.toBits.toBitVec
  have right := isRounded_unpack y.toBits.toBitVec
  have sumIsZero := eq_zero_of_unpacked_packed (isRounded_add left right) isZero
  exact notNegative (eq_negativeZero_of_add left right sumIsZero)

/-- Whether parts have a minus sign; those of what is not a number have no sign. -/
def minus? : UnpackedFloat → Option Bool
  | .notANumber => none
  | .infinity s | .zero s | .finite s _ _ _ => some (s == .negative)

theorem signBit_le_packComponents (s : Sign) (e : BitVec 11) (m : BitVec 52) :
    decide (signBit ≤ (packComponents Format.binary64 s e m).toNat) = (s == .negative) := by
  have belowExponent := e.isLt
  have belowMantissa := m.isLt
  rw [toNat_packComponents]
  unfold signBit
  cases s with
  | negative =>
      show decide (9223372036854775808 ≤ 1 * 2 ^ 63 + e.toNat * 2 ^ 52 + m.toNat) = true
      apply decide_eq_true
      omega
  | positive =>
      show decide (9223372036854775808 ≤ 0 * 2 ^ 63 + e.toNat * 2 ^ 52 + m.toNat) = false
      apply decide_eq_false
      omega

theorem isNegative_packed {u : UnpackedFloat} {negative : Bool} (sign : minus? u = some negative) :
    isNegative (packed u) = negative := by
  show decide (signBit ≤ (pack Format.binary64 u).toNat) = negative
  cases u with
  | notANumber => cases sign
  | infinity s =>
      cases sign
      exact signBit_le_packComponents _ _ _
  | zero s =>
      cases sign
      exact signBit_le_packComponents _ _ _
  | finite s m e positive =>
      cases sign
      unfold pack packedInfinity
      dsimp only
      split
      · exact signBit_le_packComponents _ _ _
      · split <;> exact signBit_le_packComponents _ _ _

theorem minus?_roundWithAccuracy (s : Sign) (m : Nat) (e : Int) (accuracy : Accuracy) :
    minus? (roundWithAccuracy Format.binary64 s m e accuracy) = some (s == .negative) := by
  obtain ⟨m', e', isRounded, -⟩ := roundWithAccuracy_eq s m e accuracy
  rw [isRounded]
  by_cases none : m' / 2 ^ targetShift m' e' = 0
  · rw [dif_pos none]
    rfl
  · rw [dif_neg none]
    rfl

theorem minus_mul (s t : Sign) : (s * t == .negative) = ((s == .negative) ^^ (t == .negative)) := by
  cases s <;> cases t <;> rfl

theorem minus?_mul {u v : UnpackedFloat} (isNumber : mul Format.binary64 u v ≠ .notANumber) :
    ∃ a b, minus? u = some a ∧ minus? v = some b ∧
      minus? (mul Format.binary64 u v) = some (a ^^ b) := by
  have signed : ∀ s t : Sign, some (s * t == .negative) =
      some ((s == .negative) ^^ (t == .negative)) := fun s t => congrArg some (minus_mul s t)
  cases u with
  | notANumber => exact absurd rfl isNumber
  | infinity s =>
      cases v with
      | notANumber | zero t => exact absurd rfl isNumber
      | infinity t | finite t _ _ _ => exact ⟨_, _, rfl, rfl, signed s t⟩
  | zero s =>
      cases v with
      | notANumber | infinity t => exact absurd rfl isNumber
      | zero t | finite t _ _ _ => exact ⟨_, _, rfl, rfl, signed s t⟩
  | finite s m e positive =>
      cases v with
      | notANumber => exact absurd rfl isNumber
      | infinity t | zero t => exact ⟨_, _, rfl, rfl, signed s t⟩
      | finite t n d positive' =>
          refine ⟨_, _, rfl, rfl, ?_⟩
          rw [← signed]
          exact minus?_roundWithAccuracy _ _ _ _

theorem isNegative_of_minus? {x : Float} {negative : Bool}
    (sign : minus? (unpacked x) = some negative) : isNegative x = negative := by
  rw [← packed_unpacked x]
  exact isNegative_packed sign

theorem isNegative_of_zero {x : Float} {s : Sign} (isZero : unpacked x = .zero s) :
    isNegative x = (s == .negative) := by
  apply isNegative_of_minus?
  rw [isZero]
  rfl

theorem isNaN_of_minus? {x : Float} {negative : Bool}
    (sign : minus? (unpacked x) = some negative) : x.isNaN = false := by
  show (unpacked x).isNaN = false
  cases parts : unpacked x with
  | notANumber =>
      rw [parts] at sign
      cases sign
  | _ => rfl

/-- A product that is a number is one of numbers, with the sign that theirs make. -/
theorem isNegative_mul {x y : Float} (isNumber : (x * y).isNaN = false) :
    x.isNaN = false ∧ y.isNaN = false ∧
      isNegative (x * y) = (isNegative x ^^ isNegative y) := by
  have isPacked : x * y = packed (mul Format.binary64 (unpacked x) (unpacked y)) := rfl
  have notNaN : mul Format.binary64 (unpacked x) (unpacked y) ≠ .notANumber := by
    intro isNaN
    rw [isPacked, isNaN] at isNumber
    exact absurd isNumber (by decide +kernel)
  obtain ⟨a, b, left, right, product⟩ := minus?_mul notNaN
  rw [isPacked, isNegative_packed product, isNegative_of_minus? left, isNegative_of_minus? right]
  exact ⟨isNaN_of_minus? left, isNaN_of_minus? right, rfl⟩

theorem unpacked_of_isInf {x : Float} (isInf : x.isInf = true) :
    ∃ s, unpacked x = .infinity s := by
  change (unpacked x).isInf = true at isInf
  cases same : unpacked x with
  | infinity s => exact ⟨s, rfl⟩
  | _ =>
      rw [same] at isInf
      cases isInf

theorem eq_of_isInf {x y : Float} (isInf : x.isInf = true) (isInf' : y.isInf = true)
    (sign : isNegative x = isNegative y) : x = y := by
  obtain ⟨s, infinite⟩ := unpacked_of_isInf isInf
  obtain ⟨t, infinite'⟩ := unpacked_of_isInf isInf'
  have ofSign : ∀ {z : Float} {u : Sign}, unpacked z = .infinity u →
      isNegative z = (u == .negative) := by
    intro z u parts
    apply isNegative_of_minus?
    rw [parts]
    rfl
  rw [ofSign infinite, ofSign infinite'] at sign
  apply eq_of_unpacked_eq
  rw [infinite, infinite']
  cases s <;> cases t <;> first | rfl | cases sign

theorem zero_div_zero_eq {x : Float} (isNaN : x.isNaN = true) : 0 / 0 = x :=
  eq_of_isNaN (by decide +kernel) isNaN

/-- An infinity is one of its sign divided by zero. -/
theorem one_div_zero_eq {x : Float} (isInf : x.isInf = true) :
    (if isNegative x then -1 else 1) / 0 = x := by
  cases sign : isNegative x with
  | false =>
      apply eq_of_isInf _ isInf
      · rw [sign]
        decide +kernel
      · decide +kernel
  | true =>
      apply eq_of_isInf _ isInf
      · rw [sign]
        decide +kernel
      · decide +kernel

end PathExpr.Double
