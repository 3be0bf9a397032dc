import PathExpr.Kind
import PathExpr.Token.Basic

set_option autoImplicit false

namespace PathExpr.Expr

inductive Wanted where
  | expression
  | leftParen
  | rightParen
  | commaOrRightParen
deriving Repr, DecidableEq

def Wanted.description : Wanted → String
  | expression => "an expression"
  | leftParen => "`(`"
  | rightParen => "`)`"
  | commaOrRightParen => "`,` or `)`"

/-- Positions count the tokens before the one that is reported. -/
inductive Fault where
  | unexpectedToken (found : Token) (position : Nat)
  | expectedToken (expected found : Token) (position : Nat)
  | unexpectedEnd (wanted : Wanted)
  /-- The operand that begins at the position is of a kind that its operator does not serve. -/
  | kindMismatch (expected found : Kind) (position : Nat)
  | argumentCount (function : Function) (found position : Nat)
deriving Repr, DecidableEq

def arity : Function → String
  | .fold _ => "at least 1"
  | .length => "exactly 1"

def Fault.message : Fault → String
  | unexpectedToken found position =>
      "unexpected token `" ++ found.text ++ "` at token " ++ toString position
  | expectedToken expected found position =>
      "expected `" ++ expected.text ++ "`, found `" ++ found.text ++ "` at token " ++
        toString position
  | unexpectedEnd wanted => "unexpected end of input, expected " ++ wanted.description
  | kindMismatch expected found position =>
      "expected " ++ expected.name ++ " expression, found " ++ found.name ++
        " expression at token " ++ toString position
  | argumentCount function found position =>
      function.name ++ " takes " ++ arity function ++ " argument(s), found " ++ toString found ++
        " at token " ++ toString position

end PathExpr.Expr
