import PathExpr.Text.Property

set_option autoImplicit false

namespace PathExpr.Text

/-- A code point in lower-case hexadecimal, without leading zeros. -/
def hexCode (c : Char) : String := String.ofList (Nat.toDigits 16 c.toNat)

/-- A character as itself where it can be read on its own, and as an escape where it cannot. -/
def showChar (c : Char) : String :=
  if c == '\x00' then "\\0"
  else if c == '\t' then "\\t"
  else if c == '\n' then "\\n"
  else if c == '\r' then "\\r"
  else if c == '\\' then "\\\\"
  else if c == '\'' then "\\'"
  else if isOverlaid c || isInvisible c then "\\u\x7b" ++ hexCode c ++ "\x7d"
  else c.toString

def shown (c : Char) : String := "'" ++ showChar c ++ "'"

end PathExpr.Text
