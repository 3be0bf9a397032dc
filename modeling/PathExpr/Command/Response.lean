import PathExpr.Command.Arguments
import PathExpr.Command.Basic
import PathExpr.Json.Library

set_option autoImplicit false

namespace PathExpr.Command

structure Response where
  code : UInt32
  output : String
  errors : String
deriving Repr, DecidableEq

def usage : Response :=
  ⟨2, "", "usage: sprig check EXPRESSION [--no-reduce]\n" ++
    "       sprig eval EXPRESSION [--input JSON] [--pretty] [--no-reduce]\n" ++
    "       sprig --version\n"⟩

def Response.success (line : String) : Response := ⟨0, line ++ "\n", ""⟩

inductive StandardInput where
  /-- Nothing is piped in. -/
  | terminal
  | text (content : String)
  | failed (reason : String)
deriving Repr, DecidableEq

def Request.readsInput : Request → Bool
  | .evaluate _ none _ _ => true
  | _ => false

section

variable {N ε : Type}

/-- The input of an evaluation: what is given in the arguments, or else what is piped in. -/
def inputText (given : Option String) (stdin : StandardInput) :
    Except (Fault ε) (Option String) :=
  match given, stdin with
  | some text, _ => .ok (some text)
  | none, .text content => .ok (some content)
  | none, .terminal => .ok none
  | none, .failed reason => .error (.io reason)

def Response.ofResult (explain : ε → String) : Except (Fault ε) String → Response
  | .ok line => .success line
  | .error fault => ⟨1, "", fault.message explain ++ "\n"⟩

variable [Json.Numbers N] (library : Json.Library N ε) (stdin : StandardInput)

def evaluateText (text : String) (given : Option String) (pretty normalize : Bool) :
    Except (Fault ε) String := do
  let input ← inputText given stdin
  let document ← evaluate library.read text input normalize
  (library.write (if pretty then .pretty else .compact) document).mapError .json

def Request.respond : Request → Response
  | .version => .success "sprig 0.1.0"
  | .check text normalize => .ofResult library.explain (Command.check text normalize)
  | .evaluate text given pretty normalize =>
      .ofResult library.explain (evaluateText library stdin text given pretty normalize)

def respond (args : List String) : Response :=
  match Request.ofArguments args with
  | some request => request.respond library stdin
  | none => usage

end

end PathExpr.Command
