import PathExpr.Proofs.Decimal.Nearest
import PathExpr.Proofs.Double.Bits
import PathExpr.Token.Basic
import PathExpr.Token.Numeral

set_option autoImplicit false

namespace PathExpr

/-- At least one digit before the point, and nothing but digits around it. -/
structure Numeral.WellFormed (n : Numeral) : Prop where
  whole_ne_nil : n.whole ≠ []
  whole : ∀ c ∈ n.whole, c.isDigit = true
  fraction : ∀ c ∈ n.fraction.getD [], c.isDigit = true

namespace Decimal

/-- The digits of a decimal with so many zeros in front that a digit stands before the point. -/
def padded (d : Decimal) : List Char :=
  List.replicate ((-d.exponent).toNat + 1 - (Nat.toDigits 10 d.digits).length) '0' ++
    Nat.toDigits 10 d.digits

def numeral (negative : Bool) (d : Decimal) : Numeral :=
  if 0 ≤ d.exponent then
    ⟨negative, Nat.toDigits 10 d.digits ++ List.replicate d.exponent.toNat '0', none⟩
  else
    let places := d.padded.length - (-d.exponent).toNat
    ⟨negative, d.padded.take places, some (d.padded.drop places)⟩

theorem chars_numeral (negative : Bool) (d : Decimal) :
    (d.numeral negative).chars = (if negative then ['-'] else []) ++ d.plain false := by
  unfold numeral plain padded
  dsimp only
  split
  · unfold Numeral.chars
    dsimp only
    rw [if_neg Bool.false_ne_true, List.append_nil, List.append_nil]
  · unfold Numeral.chars
    dsimp only
    rw [List.append_assoc]

theorem isDigit_of_mem_replicate {count : Nat} {c : Char} (inZeros : c ∈ List.replicate count '0') :
    c.isDigit = true := by
  rw [List.eq_of_mem_replicate inZeros]
  rfl

theorem isDigit_of_mem_digits {n : Nat} {c : Char} (inDigits : c ∈ Nat.toDigits 10 n) :
    c.isDigit = true :=
  Nat.isDigit_of_mem_toDigits (by decide) (by decide) inDigits

theorem isDigit_of_mem_padded {d : Decimal} {c : Char} (inPadded : c ∈ d.padded) :
    c.isDigit = true := by
  rcases List.mem_append.1 inPadded with inZeros | inDigits
  · exact isDigit_of_mem_replicate inZeros
  · exact isDigit_of_mem_digits inDigits

theorem length_padded (d : Decimal) : (-d.exponent).toNat + 1 ≤ d.padded.length := by
  unfold padded
  rw [List.length_append, List.length_replicate]
  omega

theorem wellFormed_numeral (negative : Bool) (d : Decimal) :
    (d.numeral negative).WellFormed := by
  unfold numeral
  split
  · constructor
    · exact List.append_ne_nil_of_left_ne_nil Nat.toDigits_ne_nil _
    · intro c inWhole
      rcases List.mem_append.1 inWhole with inDigits | inZeros
      · exact isDigit_of_mem_digits inDigits
      · exact isDigit_of_mem_replicate inZeros
    · intro c inNone
      cases inNone
  · have long := length_padded d
    constructor
    · intro none
      have empty := congrArg List.length none
      rw [List.length_take, List.length_nil] at empty
      omega
    · exact fun c inWhole => isDigit_of_mem_padded (List.mem_of_mem_take inWhole)
    · exact fun c inFraction => isDigit_of_mem_padded (List.mem_of_mem_drop inFraction)

theorem value_numeral (negative : Bool) (d : Decimal) :
    (d.numeral negative).value = d.toDouble negative := by
  unfold numeral Numeral.value toDouble ofDigits
  split
  · rename_i whole
    have same : nearest ⟨d.digits * 10 ^ d.exponent.toNat, 0⟩ = d.nearest := by
      rw [nearest_mul_ten_pow, Int.zero_add, Int.toNat_of_nonneg whole]
    dsimp only [Option.getD]
    rw [List.append_nil, Nat.ofDigitChars_append, Nat.ofDigitChars_ten_toDigits,
      Nat.ofDigitChars_replicate_zero, Nat.mul_comm]
    exact congrArg (Double.ofMagnitude negative) same
  · have digits : Nat.ofDigitChars 10 d.padded 0 = d.digits := by
      unfold padded
      rw [Nat.ofDigitChars_append, Nat.ofDigitChars_replicate_zero, Nat.mul_zero,
        Nat.ofDigitChars_ten_toDigits]
    have exponent : (0 : Int) -
        (d.padded.drop (d.padded.length - (-d.exponent).toNat)).length = d.exponent := by
      have long := length_padded d
      rw [List.length_drop]
      omega
    dsimp only [Option.getD]
    rw [List.take_append_drop, digits, exponent]

end Decimal

namespace Token

def numeralOf (x : Float) : Numeral :=
  let m := Double.magnitude x
  let d : Decimal := if m = 0 then ⟨0, 0⟩ else Decimal.shortest numberStyle.tie m
  d.strip.numeral (Double.isNegative x)

theorem wellFormed_numeralOf (x : Float) : (numeralOf x).WellFormed :=
  Decimal.wellFormed_numeral _ _

theorem numberText_eq {x : Float} (finite : x.isFinite = true) :
    numberText x = (numeralOf x).text := by
  unfold numberText
  rw [Double.isNaN_of_isFinite finite, Double.isInf_of_isFinite finite,
    if_neg Bool.false_ne_true, if_neg Bool.false_ne_true]
  unfold numeralOf Numeral.text
  dsimp only
  rw [Decimal.chars_numeral]
  unfold Decimal.Style.write Decimal.Style.writeMagnitude
  dsimp only
  cases Double.isNegative x <;> rfl

/-- A finite number is read back from its text bit for bit. -/
theorem value_numeralOf {x : Float} (finite : x.isFinite = true) : (numeralOf x).value = x := by
  unfold numeralOf
  dsimp only
  rw [Decimal.value_numeral]
  unfold Decimal.toDouble
  rw [Decimal.nearest_strip]
  have nearest : (if Double.magnitude x = 0 then ⟨0, 0⟩
      else Decimal.shortest numberStyle.tie (Double.magnitude x) : Decimal).nearest =
      Double.magnitude x := by
    split
    · rename_i zero
      rw [zero]
      rfl
    · exact Decimal.nearest_shortest _ (Double.magnitude_lt_of_isFinite finite)
  rw [nearest, Double.ofMagnitude_magnitude]

end Token

end PathExpr
