import PathExpr.Compile

set_option autoImplicit false

namespace PathExpr.Expr

inductive Edit where
  | parse (text : String)
  | compile (text : String)
  | replace (e : Tree)
  | normalize
  /-- Writes the current expression and reads it again. -/
  | reparse
  | narrow (k : Kind)
  /-- The current expression becomes the default of a path. -/
  | defaultOf (path : Path)

inductive EditFault where
  | text (fault : TextFault)
  /-- The expression is of this kind already. -/
  | kind (found : Kind)
  | noExpression
deriving Repr, DecidableEq

def narrowed (k : Kind) (e : Tree) : Except Kind Tree := (e.narrow k).map .typed

/-- Makes a new expression, in most cases from the current one. -/
def Edit.apply (edit : Edit) (current : Option Tree) : Except EditFault Tree :=
  match edit, current with
  | .parse text, _ => (Expr.parse text).mapError .text
  | .compile text, _ => (Expr.compile text).mapError .text
  | .replace e, _ => .ok e
  | .normalize, some e => .ok e.normalize
  | .reparse, some e => (Expr.parse e.text).mapError .text
  | .narrow k, some e => (narrowed k e).mapError .kind
  | .defaultOf p, some e => .ok (.withDefault p e)
  | _, none => .error .noExpression

end PathExpr.Expr
