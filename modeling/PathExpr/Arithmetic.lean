set_option autoImplicit false

namespace PathExpr

inductive Comparison where
  | less
  | lessEqual
  | greater
  | greaterEqual
deriving Repr, DecidableEq

def Comparison.symbol : Comparison → String
  | .less => "<"
  | .lessEqual => "<="
  | .greater => ">"
  | .greaterEqual => ">="

/-- The number operations that expressions use. Folding and evaluation are written against this
interface, so their laws can be stated for exact arithmetic as well as for doubles. -/
class Arithmetic (ν : Type) where
  zero : ν
  one : ν
  add : ν → ν → ν
  mul : ν → ν → ν
  neg : ν → ν
  sub : ν → ν → ν
  div : ν → ν → ν
  /-- The number of elements of an array. -/
  ofCount : Nat → ν
  /-- Whether adding the number changes nothing. -/
  isZero : ν → Bool
  /-- Whether multiplying by the number changes nothing. -/
  isOne : ν → Bool
  /-- Equality as expressions define it. -/
  equal : ν → ν → Bool
  compare : Comparison → ν → ν → Bool

/-- Doubles, with the operations and comparisons of IEEE 754. -/
instance : Arithmetic Float where
  zero := 0
  one := 1
  add := (· + ·)
  mul := (· * ·)
  neg := (- ·)
  sub := (· - ·)
  div := (· / ·)
  ofCount := Float.ofNat
  isZero := (· == 0)
  isOne := (· == 1)
  equal := (· == ·)
  compare
    | .less, x, y => decide (x < y)
    | .lessEqual, x, y => decide (x ≤ y)
    | .greater, x, y => decide (y < x)
    | .greaterEqual, x, y => decide (y ≤ x)

end PathExpr
