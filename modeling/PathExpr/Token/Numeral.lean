import PathExpr.Decimal.Basic

set_option autoImplicit false

namespace PathExpr

/-- Digits with or without a point and a fraction. The same text serves as a number and, if it is
whole and small enough, as a position in an array. -/
structure Numeral where
  negative : Bool
  whole : List Char
  /-- The digits behind the point, `some []` if the point is the last character. -/
  fraction : Option (List Char)
deriving Repr, DecidableEq

namespace Numeral

def chars (n : Numeral) : List Char :=
  (if n.negative then ['-'] else []) ++ n.whole ++
    match n.fraction with
    | none => []
    | some digits => '.' :: digits

def text (n : Numeral) : String := String.ofList n.chars

/-- The nearest double, infinite if the numeral is too large. -/
def value (n : Numeral) : Float :=
  (Decimal.ofDigits n.whole (n.fraction.getD []) 0).toDouble n.negative

def index? (n : Numeral) : Option UInt64 :=
  let position := Nat.ofDigitChars 10 n.whole 0
  if n.fraction = none ∧ position < UInt64.size then some (UInt64.ofNat position) else none

end Numeral

end PathExpr
