import PathExpr.Text.Shown

set_option autoImplicit false

namespace PathExpr.Token

/-- Positions count the characters before the one that is reported. -/
inductive Fault where
  | unexpectedEnd (position : Nat)
  | unexpectedChar (found : Char) (position : Nat)
  /-- A character of an operator that is written twice was followed by another one. -/
  | unexpectedAfter (found after : Char) (position : Nat)
  | invalidKeyStart (found : Char) (position : Nat)
  | invalidNumber (text : String) (position : Nat)
  | unknownWord (name : String) (position : Nat)
  | invalidEscape (found : Char) (position : Nat)
deriving Repr, DecidableEq

namespace Fault

open Text (shown)

def position : Fault → Nat
  | unexpectedEnd p => p
  | unexpectedChar _ p => p
  | unexpectedAfter _ _ p => p
  | invalidKeyStart _ p => p
  | invalidNumber _ p => p
  | unknownWord _ p => p
  | invalidEscape _ p => p

def reason : Fault → String
  | unexpectedEnd _ => "unexpected end of input"
  | unexpectedChar found _ => "unexpected token " ++ shown found
  | unexpectedAfter found after _ => "unexpected token " ++ shown found ++ " after " ++ shown after
  | invalidKeyStart found _ => "key in path cannot start with " ++ shown found
  | invalidNumber text _ => "error parsing number " ++ text
  | unknownWord name _ => "unexpected identifier \"" ++ name ++ "\""
  | invalidEscape found _ => "unexpected escaped token " ++ shown found ++ " in string"

def message (fault : Fault) : String :=
  fault.reason ++ " at position " ++ toString fault.position

end Fault

end PathExpr.Token
