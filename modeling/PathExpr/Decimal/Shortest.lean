import PathExpr.Decimal.Basic

set_option autoImplicit false

namespace PathExpr.Decimal

/-- Which of two equally near decimals is taken. -/
inductive Tie where
  | up
  | even
deriving Repr, DecidableEq

def readsBack (m : Nat) (d : Decimal) : Bool := d.nearest == m

/-- The exact value of a finite double: dividing by a power of two is multiplying by the same power
of five and moving the point. -/
def exact (m : Nat) : Decimal := ⟨Double.units m * Nat.pow 5 1074, -1074⟩

/-- The exponent of the lowest power of ten above a double that is not zero. Multiplied by
`10 ^ 324` every such double is at least one, so its whole part has all the digits before the
point. -/
def scale (m : Nat) : Int :=
  (Nat.toDigits 10 (Double.units m * Nat.pow 10 324 / Double.unitsPerOne)).length - 324

def isNearerAbove (tie : Tie) (num den : Nat) : Bool :=
  match compare (2 * (num % den)) den with
  | .lt => false
  | .gt => true
  | .eq => tie == .up || num / den % 2 == 1

/-- A decimal next to a double among the multiples of `10 ^ exponent`: the nearer one if it reads
back, else the other if that one does. -/
def neighbour? (tie : Tie) (m : Nat) (exponent : Int) : Option Decimal :=
  let num := Double.units m * Nat.pow 10 (-exponent).toNat
  let den := Double.unitsPerOne * Nat.pow 10 exponent.toNat
  let low : Decimal := ⟨num / den, exponent⟩
  let high : Decimal := ⟨num / den + 1, exponent⟩
  (if isNearerAbove tie num den then [high, low] else [low, high]).find? (readsBack m)

/-- The shortest decimal that reads back to a finite double: the first one that does with one digit,
two digits and so on. Should none of seventeen digits read back, the exact value still does. -/
def shortest (tie : Tie) (m : Nat) : Decimal :=
  ((List.range 17).findSome? fun (n : Nat) => neighbour? tie m (scale m - (n + 1))).getD (exact m)

theorem readsBack_of_neighbour? {tie : Tie} {m : Nat} {exponent : Int} {d : Decimal}
    (found : neighbour? tie m exponent = some d) : readsBack m d = true :=
  List.find?_some found

end PathExpr.Decimal
