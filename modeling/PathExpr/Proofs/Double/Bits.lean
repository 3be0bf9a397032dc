import Mathlib.Algebra.Group.Nat.Defs
import PathExpr.Double.Basic

set_option autoImplicit false

namespace PathExpr.Double

open Float.Model (Format)
open Float.Model.UnpackedFloat

theorem toNat_unpackMantissa (b : BitVec Format.binary64.numBits) :
    (unpackMantissa b).toNat = b.toNat % 2 ^ 52 := by
  show (b.toNat >>> 0) % 2 ^ 52 = _
  rw [Nat.shiftRight_zero]

theorem toNat_unpackExponent (b : BitVec Format.binary64.numBits) :
    (unpackExponent b).toNat = b.toNat / 2 ^ 52 % 2 ^ 11 := by
  show (b.toNat >>> 52) % 2 ^ 11 = _
  rw [Nat.shiftRight_eq_div_pow]

theorem toNat_unpackSign (b : BitVec Format.binary64.numBits) :
    (unpackSign b).toNat = b.toNat / 2 ^ 63 % 2 := by
  show (b.toNat >>> 63) % 2 = _
  rw [Nat.shiftRight_eq_div_pow]

theorem toBitVec_ofBitVec (b : BitVec 1) : (Sign.ofBitVec b).toBitVec = b := by
  unfold Sign.ofBitVec
  by_cases isZero : b = 0#1
  · rw [if_pos isZero, isZero]
    rfl
  · rw [if_neg isZero]
    have below := b.isLt
    have positive : b.toNat ≠ 0 := fun none => isZero (BitVec.eq_of_toNat_eq none)
    apply BitVec.eq_of_toNat_eq
    show 1 = b.toNat
    omega

theorem toNat_packComponents (s : Sign) (e : BitVec 11) (m : BitVec 52) :
    (packComponents Format.binary64 s e m).toNat =
      s.toBitVec.toNat * 2 ^ 63 + e.toNat * 2 ^ 52 + m.toNat := by
  have belowMantissa := m.isLt
  have belowExponent := e.isLt
  unfold packComponents
  rw [BitVec.toNat_append, BitVec.toNat_append, ← Nat.shiftLeft_add_eq_or_of_lt belowMantissa,
    ← Nat.shiftLeft_add_eq_or_of_lt belowExponent, Nat.shiftLeft_eq, Nat.shiftLeft_eq]
  omega

theorem packComponents_fields (b : BitVec Format.binary64.numBits) :
    packComponents Format.binary64 (Sign.ofBitVec (unpackSign b)) (unpackExponent b)
      (unpackMantissa b) = b := by
  have below : b.toNat < 2 ^ 64 := b.isLt
  apply BitVec.eq_of_toNat_eq
  rw [toNat_packComponents, toBitVec_ofBitVec, toNat_unpackSign, toNat_unpackExponent,
    toNat_unpackMantissa]
  omega

/-- What the fields say: infinity and what is not a number have the last exponent, zeros and
subnormal numbers the first one. -/
theorem unpack_cases (b : BitVec Format.binary64.numBits) :
    (unpackExponent b = -1#11 ∧ unpackMantissa b = 0#52 ∧
      unpack Format.binary64 b = .infinity (Sign.ofBitVec (unpackSign b))) ∨
    (unpackExponent b = -1#11 ∧ unpackMantissa b ≠ 0#52 ∧
      unpack Format.binary64 b = .notANumber) ∨
    (unpackExponent b = 0#11 ∧ unpackMantissa b = 0#52 ∧
      unpack Format.binary64 b = .zero (Sign.ofBitVec (unpackSign b))) ∨
    (unpackExponent b = 0#11 ∧ unpackMantissa b ≠ 0#52 ∧ ∃ positive,
      unpack Format.binary64 b = .finite (Sign.ofBitVec (unpackSign b)) (unpackMantissa b).toNat
        (-1074) positive) ∨
    (unpackExponent b ≠ -1#11 ∧ unpackExponent b ≠ 0#11 ∧ ∃ positive,
      unpack Format.binary64 b = .finite (Sign.ofBitVec (unpackSign b))
        (1#1 ++ unpackMantissa b).toNat ((unpackExponent b).toNat - 1075) positive) := by
  unfold unpack
  dsimp only
  by_cases last : unpackExponent b = -1#11
  · rw [if_pos last]
    by_cases noMantissa : unpackMantissa b = 0#52
    · exact .inl ⟨last, noMantissa, if_pos noMantissa⟩
    · exact .inr (.inl ⟨last, noMantissa, if_neg noMantissa⟩)
  · rw [if_neg last]
    by_cases first : unpackExponent b = 0#11
    · rw [if_pos first]
      by_cases noMantissa : unpackMantissa b = 0#52
      · exact .inr (.inr (.inl ⟨first, noMantissa, dif_pos noMantissa⟩))
      · refine .inr (.inr (.inr (.inl ⟨first, noMantissa, ?_, ?_⟩)))
        · exact BitVec.toNat_pos_of_ne_zero noMantissa
        · rw [dif_neg noMantissa, first]
          rfl
    · have positive : 0 < (1#1 ++ unpackMantissa b).toNat := by
        rw [BitVec.toNat_append, ← Nat.shiftLeft_add_eq_or_of_lt (unpackMantissa b).isLt]
        exact Nat.add_pos_left (by decide) _
      rw [if_neg first]
      exact .inr (.inr (.inr (.inr ⟨last, first, positive, rfl⟩)))

theorem pack_subnormal (s : Sign) (m : BitVec 52) {e : Int} (least : e = -1074)
    (positive : 0 < m.toNat) :
    pack Format.binary64 (.finite s m.toNat e positive) =
      packComponents Format.binary64 s 0#11 m := by
  have below := m.isLt
  have biased : (e + Format.binary64.exponentBias +
      Format.binary64.mantissaBitsWithoutImplicit).toNat = 1 := by
    rw [least]
    rfl
  have short : ¬m.toNat.log2 + 1 = Format.binary64.mantissaBits := by
    have bound := (Nat.log2_lt (Nat.ne_of_gt positive)).2 below
    show ¬m.toNat.log2 + 1 = 53
    omega
  unfold pack
  dsimp only
  rw [biased, if_neg (by decide), if_neg short, BitVec.ofNat_toNat, BitVec.setWidth_eq]

theorem pack_normal (s : Sign) {e : BitVec 11} (m : BitVec 52) {scale : Int}
    (isScale : scale = (e.toNat : Int) - 1075) (ordinary : e ≠ -1#11) {n : Nat}
    (isSum : n = 2 ^ 52 + m.toNat) (positive : 0 < n) :
    pack Format.binary64 (.finite s n scale positive) = packComponents Format.binary64 s e m := by
  have below := m.isLt
  have belowExponent := e.isLt
  have biased : (scale + Format.binary64.exponentBias +
      Format.binary64.mantissaBitsWithoutImplicit).toNat = e.toNat := by
    rw [isScale]
    show ((e.toNat : Int) - 1075 + 1023 + 52).toNat = e.toNat
    omega
  have small : ¬2 ^ Format.binary64.exponentBits ≤ e.toNat + 1 := by
    have notLast : e.toNat ≠ 2047 := fun last => ordinary (BitVec.eq_of_toNat_eq last)
    show ¬2048 ≤ e.toNat + 1
    omega
  have long : n.log2 + 1 = Format.binary64.mantissaBits := by
    have lower := (Nat.le_log2 (Nat.ne_of_gt positive) (k := 52)).2 (by omega)
    have upper := (Nat.log2_lt (Nat.ne_of_gt positive) (k := 53)).2 (by omega)
    show n.log2 + 1 = 53
    omega
  have fraction : BitVec.ofNat 52 n = m := by
    apply BitVec.eq_of_toNat_eq
    rw [BitVec.toNat_ofNat, isSum]
    omega
  unfold pack
  dsimp only
  rw [biased, if_neg small, if_pos long]
  show packComponents Format.binary64 s (BitVec.ofNat 11 e.toNat) (BitVec.ofNat 52 n) = _
  rw [fraction, BitVec.ofNat_toNat, BitVec.setWidth_eq]

theorem pack_unpack {b : BitVec Format.binary64.numBits} (valid : Format.binary64.Valid b) :
    pack Format.binary64 (unpack Format.binary64 b) = b := by
  have fields := packComponents_fields b
  rcases unpack_cases b with ⟨last, noMantissa, parts⟩ | ⟨last, someMantissa, parts⟩ |
    ⟨first, noMantissa, parts⟩ | ⟨first, someMantissa, positive, parts⟩ |
    ⟨notLast, notFirst, positive, parts⟩
  · rw [last, noMantissa] at fields
    rw [parts]
    exact fields
  · rw [parts]
    exact (valid.eq_packedNaN last someMantissa).symm
  · rw [first, noMantissa] at fields
    rw [parts]
    exact fields
  · rw [parts, pack_subnormal _ _ rfl, ← first, fields]
  · rw [parts, pack_normal _ (unpackMantissa b) rfl notLast, fields]
    rw [BitVec.toNat_append, ← Nat.shiftLeft_add_eq_or_of_lt (unpackMantissa b).isLt]
    rfl

theorem ofBits_toBits (x : Float) : Float.ofBits x.toBits = x := by
  obtain ⟨bits, valid⟩ := x
  have same : UInt64.ofBitVec (pack Format.binary64 (unpack Format.binary64 bits.toBitVec)) =
      bits := by
    rw [pack_unpack valid, UInt64.ofBitVec_toBitVec]
  exact congrArg Float.ofModel ((Float.Model.mk.injEq _ _ _ _).mpr same)

theorem ofMagnitude_magnitude (x : Float) : ofMagnitude (isNegative x) (magnitude x) = x := by
  have below : x.toBits.toNat < 2 ^ 64 := x.toBits.toNat_lt
  have bits : (if isNegative x then signBit + magnitude x else magnitude x) = x.toBits.toNat := by
    unfold isNegative magnitude signBit
    split
    · rename_i negative
      have high := of_decide_eq_true negative
      omega
    · rename_i positive
      have low : ¬signBit ≤ x.toBits.toNat := fun high => positive (decide_eq_true high)
      unfold signBit at low
      omega
  rw [ofMagnitude, bits, UInt64.ofNat_toNat, ofBits_toBits]

theorem isFinite_unpack (b : BitVec Format.binary64.numBits) :
    (unpack Format.binary64 b).isFinite = true ↔ unpackExponent b ≠ -1#11 := by
  have firstIsNotLast : (0#11 : BitVec 11) ≠ -1#11 := by decide
  rcases unpack_cases b with ⟨last, -, parts⟩ | ⟨last, -, parts⟩ | ⟨first, -, parts⟩ |
    ⟨first, -, positive, parts⟩ | ⟨notLast, -, positive, parts⟩
  · rw [parts]
    exact ⟨fun finite => Bool.noConfusion finite, fun notLast => absurd last notLast⟩
  · rw [parts]
    exact ⟨fun finite => Bool.noConfusion finite, fun notLast => absurd last notLast⟩
  · rw [parts, first]
    exact ⟨fun _ => firstIsNotLast, fun _ => rfl⟩
  · rw [parts, first]
    exact ⟨fun _ => firstIsNotLast, fun _ => rfl⟩
  · rw [parts]
    exact ⟨fun _ => notLast, fun _ => rfl⟩

theorem magnitude_lt_of_isFinite {x : Float} (finite : x.isFinite = true) :
    magnitude x < infiniteMagnitude := by
  let b : BitVec Format.binary64.numBits := x.toBits.toBitVec
  have notLast : (unpackExponent b).toNat ≠ 2047 :=
    fun last => (isFinite_unpack b).1 finite (BitVec.eq_of_toNat_eq last)
  have bits : b.toNat = x.toBits.toNat := rfl
  rw [toNat_unpackExponent, bits] at notLast
  unfold magnitude infiniteMagnitude signBit fractions
  omega

theorem isFinite_of_magnitude_lt {x : Float} (bounded : magnitude x < infiniteMagnitude) :
    x.isFinite = true := by
  let b : BitVec Format.binary64.numBits := x.toBits.toBitVec
  refine (isFinite_unpack b).2 fun last => ?_
  have isLast : (unpackExponent b).toNat = 2047 := congrArg BitVec.toNat last
  have bits : b.toNat = x.toBits.toNat := rfl
  rw [toNat_unpackExponent, bits] at isLast
  unfold magnitude infiniteMagnitude signBit fractions at bounded
  omega

theorem unpackExponent_pack_neg (u : Float.Model.UnpackedFloat) :
    unpackExponent (pack Format.binary64 u.neg) = unpackExponent (pack Format.binary64 u) := by
  cases u with
  | notANumber => rfl
  | infinity s =>
      show unpackExponent (packComponents _ _ _ _) = unpackExponent (packComponents _ _ _ _)
      rw [unpackExponent_packComponents, unpackExponent_packComponents]
  | zero s =>
      show unpackExponent (packComponents _ _ _ _) = unpackExponent (packComponents _ _ _ _)
      rw [unpackExponent_packComponents, unpackExponent_packComponents]
  | finite s m e positive =>
      unfold neg pack packedInfinity
      dsimp only
      split
      · rw [unpackExponent_packComponents, unpackExponent_packComponents]
      · split
        · rw [unpackExponent_packComponents, unpackExponent_packComponents]
        · rw [unpackExponent_packComponents, unpackExponent_packComponents]

theorem isFinite_neg {x : Float} (finite : x.isFinite = true) : (-x).isFinite = true := by
  let b : BitVec Format.binary64.numBits := x.toBits.toBitVec
  have same : unpackExponent (pack Format.binary64 (unpack Format.binary64 b).neg) =
      unpackExponent b := by
    have valid : Format.binary64.Valid b := x.toModel.valid
    rw [unpackExponent_pack_neg, pack_unpack valid]
  apply (isFinite_unpack _).2
  show unpackExponent (pack Format.binary64 (unpack Format.binary64 b).neg) ≠ _
  rw [same]
  exact (isFinite_unpack b).1 finite

theorem isNaN_of_isFinite {x : Float} (finite : x.isFinite = true) : x.isNaN = false := by
  show (Float.Model.unpack x.toModel).isNaN = false
  change (Float.Model.unpack x.toModel).isFinite = true at finite
  cases same : Float.Model.unpack x.toModel with
  | notANumber =>
      rw [same] at finite
      cases finite
  | _ => rfl

theorem isInf_of_isFinite {x : Float} (finite : x.isFinite = true) : x.isInf = false := by
  show (Float.Model.unpack x.toModel).isInf = false
  change (Float.Model.unpack x.toModel).isFinite = true at finite
  cases same : Float.Model.unpack x.toModel with
  | infinity s =>
      rw [same] at finite
      cases finite
  | _ => rfl

theorem isFinite_of_ordinary {x : Float} (number : x.isNaN = false) (bounded : x.isInf = false) :
    x.isFinite = true := by
  change (Float.Model.unpack x.toModel).isNaN = false at number
  change (Float.Model.unpack x.toModel).isInf = false at bounded
  show (Float.Model.unpack x.toModel).isFinite = true
  cases same : Float.Model.unpack x.toModel with
  | notANumber =>
      rw [same] at number
      cases number
  | infinity s =>
      rw [same] at bounded
      cases bounded
  | _ => rfl

end PathExpr.Double
