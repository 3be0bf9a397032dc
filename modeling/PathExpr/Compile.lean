import PathExpr.Expr.Normalize
import PathExpr.Expr.Parser
import PathExpr.Expr.Text
import PathExpr.Token.Scan

set_option autoImplicit false

namespace PathExpr

/-- Why a text is no expression: it has no tokens, or its tokens do not make one. -/
inductive TextFault where
  | token (fault : Token.Fault)
  | expr (fault : Expr.Fault)
deriving Repr, DecidableEq

def TextFault.message : TextFault → String
  | token fault => "lex error: " ++ fault.message
  | expr fault => "parse error: " ++ fault.message

namespace Expr

def parse (text : String) : Except TextFault Tree := do
  let tokens ← (Token.scan text).mapError .token
  (ofTokens tokens).mapError .expr

/-- The expression that a text spells, with its constants folded: the form to keep and to evaluate
many times. -/
def compile (text : String) : Except TextFault Tree := (parse text).map normalize

end Expr

end PathExpr
