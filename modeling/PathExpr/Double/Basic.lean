set_option autoImplicit false

/- Without its sign bit a double is a natural number, its magnitude, and magnitudes count the
non-negative doubles in order. Each finite double is a whole multiple of the least positive one, the
unit, so rounding a ratio to the nearest double needs no arithmetic but that of naturals. -/
namespace PathExpr.Double

def signBit : Nat := 0x8000000000000000

/-- The number of fractions, which are the low 52 bits of a magnitude. -/
def fractions : Nat := 0x10000000000000

/-- Negative zero is negative. -/
def isNegative (x : Float) : Bool := decide (signBit ≤ x.toBits.toNat)

def magnitude (x : Float) : Nat := x.toBits.toNat % signBit

def ofMagnitude (negative : Bool) (m : Nat) : Float :=
  Float.ofBits (UInt64.ofNat (if negative then signBit + m else m))

/-- The magnitude of infinity. Those of finite doubles are below it. -/
def infiniteMagnitude : Nat := 2047 * fractions

/-- How many units a finite double is worth. The bits above the fraction say how often the unit is
doubled. -/
def units (m : Nat) : Nat :=
  let scale := m / fractions
  if scale = 0 then m else (fractions + m % fractions) <<< (scale - 1)

def unitsPerOne : Nat := 1 <<< 1074

/-- `num / den` rounded to the nearest natural number, and to the even one of two. -/
def roundEven (num den : Nat) : Nat :=
  let low := num / den
  match compare (2 * (num % den)) den with
  | .lt => low
  | .eq => low + low % 2
  | .gt => low + 1

/-- The magnitude nearest to `num / den` units. The shift leaves 53 bits to the left of the point;
a carry out of them moves into the scale by itself, and past the last finite magnitude comes
infinity. -/
def nearest (num den : Nat) : Nat :=
  let shift := (num / den).log2 - 52
  min (shift * fractions + roundEven num (den <<< shift)) infiniteMagnitude

theorem roundEven_mul (n den : Nat) (positive : 0 < den) : roundEven (n * den) den = n := by
  have below : compare (2 * 0) den = .lt := by
    rw [Nat.mul_zero, Nat.compare_eq_lt]
    exact positive
  simp only [roundEven, Nat.mul_mod_left, Nat.mul_div_cancel _ positive, below]

end PathExpr.Double
