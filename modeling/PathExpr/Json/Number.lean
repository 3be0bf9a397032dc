import PathExpr.Json.Basic

set_option autoImplicit false

namespace PathExpr.Json

/-- A number that is kept as it is: an integer of 64 bits, with a sign or without one, or a finite
double. -/
inductive Number where
  | integer (value : Int) (lower : -0x8000000000000000 ≤ value)
      (upper : value < 0x10000000000000000)
  | double (value : Float) (finite : value.isFinite = true)

def Number.toDouble : Number → Float
  | integer i _ _ => Double.ofInt i
  | double x _ => x

instance : Numbers Number where
  toDouble? n := some n.toDouble
  ofInteger i := .integer i.toInt i.le_toInt (by have := i.toInt_lt; omega)
  ofDouble? x := if finite : x.isFinite = true then some (.double x finite) else none

end PathExpr.Json
