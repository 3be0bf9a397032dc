import PathExpr.Decimal.Layout
import PathExpr.Operator
import PathExpr.Path

set_option autoImplicit false

namespace PathExpr

/-- The two ways to write a logical operator. -/
inductive Spelling where
  | symbol
  | word
deriving Repr, DecidableEq

inductive Function where
  | fold (op : Associative)
  | length
deriving Repr, DecidableEq

def Function.name : Function → String
  | .fold op => op.name
  | .length => "length"

inductive Token where
  | path (path : Path)
  | number (value : Float)
  | boolean (value : Bool)
  | string (text : String)
  /-- Stands before the default of a path. -/
  | otherwise
  | minus
  | plus
  | star
  | slash
  | not
  | equal
  | comparison (op : Comparison)
  | logical (op : Logical) (spelling : Spelling)
  | function (name : Function)
  | leftParen
  | rightParen
  | comma
deriving Repr, DecidableEq

namespace Token

/-- Numbers in expressions never have an exponent. -/
def numberStyle : Decimal.Style := ⟨.up, fun _ => true, false⟩

/-- A number as text. Only finite numbers have a text that is a token. -/
def numberText (x : Float) : String :=
  if x.isNaN then "NaN"
  else if x.isInf then (if Double.isNegative x then "-inf" else "inf")
  else String.ofList (numberStyle.write x)

def booleanText : Bool → String
  | true => "true"
  | false => "false"

def text : Token → String
  | path p => p.text
  | number x => numberText x
  | boolean b => booleanText b
  | string s => Text.quote s
  | otherwise => "?"
  | minus => "-"
  | plus => "+"
  | star => "*"
  | slash => "/"
  | not => "!"
  | equal => "=="
  | comparison op => op.symbol
  | logical op .symbol => op.symbol
  | logical op .word => op.word
  | function f => f.name
  | leftParen => "("
  | rightParen => ")"
  | comma => ","

end Token

end PathExpr
