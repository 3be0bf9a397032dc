import PathExpr.Compile
import PathExpr.Expr.Evaluate
import PathExpr.Json.Basic

set_option autoImplicit false

namespace PathExpr.Command

inductive Fault (ε : Type) where
  | expression (fault : TextFault)
  /-- A document could not be read or written. -/
  | json (fault : ε)
  | io (reason : String)
  | noInput
deriving Repr, DecidableEq

section

variable {N ε : Type}

def Fault.message (explain : ε → String) : Fault ε → String
  | expression fault => "Invalid expression: " ++ fault.message
  | json fault => "Invalid JSON: " ++ explain fault
  | io reason => "IO error: " ++ reason
  | noInput => "No input provided. Use --input or pipe JSON to stdin."

/-- The expression of a command, with its constants folded if that is asked for. -/
def build (text : String) (normalize : Bool) : Except (Fault ε) Expr.Tree :=
  (if normalize then Expr.compile text else Expr.parse text).mapError .expression

def check (text : String) (normalize : Bool) : Except (Fault ε) String :=
  (build text normalize).map Expr.text

variable [Json.Numbers N]

/-- A result as a document; nothing becomes null. -/
def resultDocument : Option (Value Float) → Json N
  | some v => Json.ofValue v
  | none => .null

/-- Evaluates an expression against the document that the input spells. The reader is the caller's,
as are the errors `ε` that it gives. -/
def evaluate (read : String → Except ε (Json N)) (text : String) (input : Option String)
    (normalize : Bool) : Except (Fault ε) (Json N) := do
  let e ← build text normalize
  let some input := input | .error .noInput
  let document ← (read input).mapError .json
  return resultDocument (e.evaluate document.context).value

end

end PathExpr.Command
