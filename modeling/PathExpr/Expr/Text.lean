import PathExpr.Expr.Basic
import PathExpr.Token.Basic

set_option autoImplicit false

namespace PathExpr

inductive Piece where
  | token (t : Token)
  | blank
deriving Repr, DecidableEq

namespace Piece

def text : Piece → String
  | token t => t.text
  | blank => " "

def token? : Piece → Option Token
  | token t => some t
  | blank => none

def parens (inside : List Piece) : List Piece :=
  token .leftParen :: (inside ++ [token .rightParen])

def spaced (t : Token) : List Piece := [blank, token t, blank]

def binary (operator : Token) (left right : List Piece) : List Piece :=
  parens (left ++ spaced operator ++ right)

end Piece

namespace Expr

open Piece

/-- A number. One that no token stands for is written as a division by zero. -/
def numberPieces (x : Float) : List Piece :=
  if x.isNaN then binary .slash [token (.number 0)] [token (.number 0)]
  else if x.isInf then
    binary .slash [token (.number (if Double.isNegative x then -1 else 1))] [token (.number 0)]
  else [token (.number x)]

/-- Operands of a logical operator. The identity stands for no operands, and it keeps a single
operand company. -/
def logicPieces (op : Logical) (operands : List (List Piece)) : List Piece :=
  let identity := [token (.boolean op.identity)]
  let operator := spaced (.logical op .symbol)
  match operands with
  | [] => identity
  | [only] => parens (only ++ operator ++ identity)
  | operands => parens (operator.intercalate operands)

mutual

/-- The written form. Every node with operands has parentheses of its own, so reading the text again
needs no precedence. -/
def pieces {k : Option Kind} : Expr Float k → List Piece
  | .path p => [token (.path p)]
  | .withDefault p d => binary .otherwise [token (.path p)] d.pieces
  | .typed e => e.pieces
  | .number x => numberPieces x
  | .negate e => token .minus :: parens e.pieces
  | .chain op operands =>
      token (.function (.fold op)) ::
        parens ([token .comma, blank].intercalate (numbersPieces operands))
  | .subtract l r => binary .minus l.pieces r.pieces
  | .divide l r => binary .slash l.pieces r.pieces
  | .length a => token (.function .length) :: parens a.pieces
  | .boolean b => [token (.boolean b)]
  | .not e => token .not :: parens e.pieces
  | .compare op l r => binary (.comparison op) l.pieces r.pieces
  | .equal l r => binary .equal l.pieces r.pieces
  | .logic op operands => logicPieces op (booleansPieces operands)
  | .string s => [token (.string s)]

def numbersPieces : List (Expr Float (some .number)) → List (List Piece)
  | [] => []
  | e :: rest => e.pieces :: numbersPieces rest

def booleansPieces : List (Expr Float (some .boolean)) → List (List Piece)
  | [] => []
  | e :: rest => e.pieces :: booleansPieces rest

end

variable {k : Option Kind}

def text (e : Expr Float k) : String := String.join (e.pieces.map Piece.text)

def tokens (e : Expr Float k) : List Token := e.pieces.filterMap Piece.token?

theorem numbersPieces_eq (operands : List (Expr Float (some .number))) :
    numbersPieces operands = operands.map pieces := by
  induction operands with
  | nil => rfl
  | cons e rest ih => simp only [numbersPieces, ih, List.map_cons]

theorem booleansPieces_eq (operands : List (Expr Float (some .boolean))) :
    booleansPieces operands = operands.map pieces := by
  induction operands with
  | nil => rfl
  | cons e rest ih => simp only [booleansPieces, ih, List.map_cons]

end Expr

end PathExpr
