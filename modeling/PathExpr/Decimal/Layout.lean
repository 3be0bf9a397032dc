import PathExpr.Decimal.Shortest

set_option autoImplicit false

namespace PathExpr.Decimal

def strip (d : Decimal) : Decimal :=
  let zeros := (Nat.toDigits 10 d.digits).reverse.takeWhile (· == '0')
  if d.digits = 0 then ⟨0, 0⟩ else ⟨d.digits / Nat.pow 10 zeros.length, d.exponent + zeros.length⟩

/-- How a double is written. -/
structure Style where
  tie : Tie
  /-- Whether a number whose leading digit has this exponent is written without an exponent. -/
  isPlain : Int → Bool
  /-- Whether a whole number without an exponent keeps a point and a zero. -/
  wholePoint : Bool

def plain (wholePoint : Bool) (d : Decimal) : List Char :=
  let digits := Nat.toDigits 10 d.digits
  if 0 ≤ d.exponent then
    digits ++ List.replicate d.exponent.toNat '0' ++ (if wholePoint then ['.', '0'] else [])
  else
    let places := (-d.exponent).toNat
    let padded := List.replicate (places + 1 - digits.length) '0' ++ digits
    padded.take (padded.length - places) ++ '.' :: padded.drop (padded.length - places)

/-- The exponent of the leading digit. -/
def leading (d : Decimal) : Int := d.exponent + (Nat.toDigits 10 d.digits).length - 1

/-- A decimal with one digit before the point and a signed exponent. -/
def scientific (d : Decimal) : List Char :=
  let power := Nat.toDigits 10 d.leading.natAbs
  let sign := if d.leading < 0 then '-' else '+'
  let fraction := (Nat.toDigits 10 d.digits).tail
  (Nat.toDigits 10 d.digits).take 1 ++ (if fraction = [] then [] else '.' :: fraction) ++
    'e' :: sign :: power

def Style.writeMagnitude (style : Style) (m : Nat) : List Char :=
  let d := (if m = 0 then ⟨0, 0⟩ else shortest style.tie m : Decimal).strip
  if style.isPlain d.leading then d.plain style.wholePoint else d.scientific

def Style.write (style : Style) (x : Float) : List Char :=
  let digits := style.writeMagnitude (Double.magnitude x)
  if Double.isNegative x then '-' :: digits else digits

end PathExpr.Decimal
