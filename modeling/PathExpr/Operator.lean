import PathExpr.Arithmetic

set_option autoImplicit false

namespace PathExpr

/-- Each of the operators has an identity, the result of no operands at all. -/
inductive Associative where
  | sum
  | product
deriving Repr, DecidableEq

namespace Associative

variable {ν : Type} [Arithmetic ν]

def name : Associative → String
  | .sum => "sum"
  | .product => "product"

def identity : Associative → ν
  | .sum => Arithmetic.zero
  | .product => Arithmetic.one

/-- Whether an operand equal to this number can be left out. -/
def isIdentity : Associative → ν → Bool
  | .sum => Arithmetic.isZero
  | .product => Arithmetic.isOne

def apply : Associative → ν → ν → ν
  | .sum => Arithmetic.add
  | .product => Arithmetic.mul

end Associative

inductive Logical where
  | and
  | or
deriving Repr, DecidableEq

namespace Logical

def identity : Logical → Bool
  | .and => true
  | .or => false

/-- The operand that decides the result whatever the others are. -/
def absorbing (op : Logical) : Bool := !op.identity

def symbol : Logical → String
  | .and => "&&"
  | .or => "||"

def word : Logical → String
  | .and => "and"
  | .or => "or"

theorem absorbing_ne_identity (op : Logical) : op.absorbing ≠ op.identity := by
  cases op <;> decide

end Logical

end PathExpr
