import PathExpr.Cursor
import PathExpr.Text.Blank
import PathExpr.Text.Word
import PathExpr.Text.Quoted
import PathExpr.Text.Shown
import PathExpr.Decimal.Layout
import PathExpr.Arithmetic
import PathExpr.Command.Arguments
import PathExpr.Command.Basic
import PathExpr.Command.Response
import PathExpr.Expr.Edit
import PathExpr.Main
import PathExpr.Token.Progress
import PathExpr.Proofs.Grammar.Basic
import PathExpr.Proofs.Grammar.Sound
import PathExpr.Proofs.Grammar.Complete
import PathExpr.Proofs.Induction
import PathExpr.Proofs.Folding.Basic
import PathExpr.Proofs.Folding.Refines
import PathExpr.Proofs.Folding.Exact
import PathExpr.Proofs.Double.Sign
import PathExpr.Proofs.Double.Bits
import PathExpr.Proofs.Double.Nearest
import PathExpr.Proofs.Decimal.Nearest
import PathExpr.Proofs.Token.Numeral
import PathExpr.Proofs.RoundTrip.Scan
import PathExpr.Proofs.RoundTrip.Canonical
import PathExpr.Proofs.RoundTrip.Written
import PathExpr.Proofs.RoundTrip.Parse
import PathExpr.Proofs.Folding.Regrouped
import PathExpr.Proofs.Folding.Rounding
import PathExpr.Proofs.Double.Neutral
import PathExpr.Proofs.Folding.Inside
import PathExpr.Proofs.Folding.Normal
import PathExpr.Proofs.RoundTrip.Spelled
import PathExpr.Proofs.RoundTrip.Compiled
import PathExpr.Proofs.Command.Composed
import PathExpr.Proofs.Double.Rounded
import PathExpr.Proofs.Lexical.Basic
import PathExpr.Proofs.Lexical.Complete
import PathExpr.Proofs.Lexical.Sound
import PathExpr.Proofs.Evaluation.Lookups
import PathExpr.Proofs.Evaluation.Narrowed
import PathExpr.Proofs.Json.Context
import PathExpr.Proofs.Json.Restored
import PathExpr.Proofs.Folding.Constant
import PathExpr.Proofs.Lexical.Faults
import PathExpr.Proofs.Lexical.Joined
import PathExpr.Proofs.Lexical.Streamed
import PathExpr.Proofs.Grammar.Respaced
import PathExpr.Proofs.Evaluation.Precedence
import PathExpr.Proofs.Grammar.Local
import PathExpr.Proofs.Grammar.Due
import PathExpr.Proofs.Grammar.Faults
import PathExpr.Proofs.Folding.Narrowed
import PathExpr.Proofs.Folding.Nested
import PathExpr.Proofs.Folding.Size
import PathExpr.Proofs.Grammar.Respelled
