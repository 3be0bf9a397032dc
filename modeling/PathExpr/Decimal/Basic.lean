import PathExpr.Double.Basic

set_option autoImplicit false

namespace PathExpr

/-- The number `digits * 10 ^ exponent`. -/
structure Decimal where
  digits : Nat
  exponent : Int
deriving Repr, DecidableEq

namespace Decimal

/-- The numerator of a decimal that is written as a fraction of units. -/
def numerator (d : Decimal) : Nat := d.digits * Nat.pow 10 d.exponent.toNat * Double.unitsPerOne

def denominator (d : Decimal) : Nat := Nat.pow 10 (-d.exponent).toNat

/-- The magnitude of the nearest double. A decimal that is certainly too large or too small for
its digits to matter is not expanded. -/
def nearest (d : Decimal) : Nat :=
  if d.digits = 0 then 0
  else if 400 < d.exponent then Double.infiniteMagnitude
  else if d.exponent < -(400 + d.digits.log2 : Int) then 0
  else Double.nearest d.numerator d.denominator

def toDouble (negative : Bool) (d : Decimal) : Float :=
  Double.ofMagnitude negative d.nearest

def ofDigits (whole fraction : List Char) (exponent : Int) : Decimal :=
  ⟨Nat.ofDigitChars 10 (whole ++ fraction) 0, exponent - fraction.length⟩

end Decimal

/-- The double nearest to an integer. -/
def Double.ofInt (i : Int) : Float := Decimal.toDouble (decide (i < 0)) ⟨i.natAbs, 0⟩

/-- The integer that a double is, if it is one below `2 ^ 53` and not negative zero. -/
def Double.integer? (x : Float) : Option Int64 :=
  let amount := units (magnitude x)
  let whole := amount / unitsPerOne
  if whole < 0x20000000000000 ∧ amount % unitsPerOne = 0 ∧
      ¬(whole = 0 ∧ isNegative x = true) then
    some (.ofInt (if isNegative x then -whole else whole))
  else none

end PathExpr
