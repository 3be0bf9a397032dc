import PathExpr.Cursor
import PathExpr.Expr.Basic
import PathExpr.Expr.Fault

set_option autoImplicit false

/- From the loosest to the tightest the levels are

    or, and, `==`, comparisons, sums and differences, products and quotients, signs and negations

and then literals, paths with or without a default, calls and parentheses. The default of a path
reaches as far as a sign or negation does. A minus sign right before digits is part of a number
token; where an operator is due, such a token is a minus sign and the number without it.

Each level is a reader that is given the reader of the tightest level. The one recursion is in
`unary`, on a bound for the number of tokens that are left; with none left there is nothing to
read, so a bound of zero gives the true answer. The loops are bounded in the same way. -/
namespace PathExpr.Expr

/-- An expression of any kind, as it is read. -/
abbrev Tree := Expr Float none

/-- What was read and the cursor behind it. -/
abbrev Parsed (α : Type) := α × Cursor Token

abbrev Parser := Cursor Token → Except Fault (Parsed Tree)

/-- An operand that begins at token `start`, given the kind that its operator serves. -/
def operand (k : Kind) (start : Nat) (e : Tree) : Except Fault (Expr Float (some k)) :=
  (e.narrow k).mapError fun found => .kindMismatch k found start

def expect (expected : Token) (wanted : Wanted) (c : Cursor Token) : Except Fault (Cursor Token) :=
  match c.peek? with
  | none => .error (.unexpectedEnd wanted)
  | some found =>
      if found = expected then .ok c.advance
      else .error (.expectedToken expected found c.position)

/-- A run of operands as one number: a single operand is itself. -/
def ofRun (op : Associative) : List (Expr Float (some .number)) → Expr Float (some .number)
  | [only] => only
  | operands => .chain op operands

def isFactorSign : Option Token → Bool
  | some .star => true
  | some .slash => true
  | _ => false

/-- Reads the operands behind `*` and `/`. The run holds what `*` has joined since the last
`/`. -/
def factors (unary : Parser) :
    Nat → List (Expr Float (some .number)) → Cursor Token →
      Except Fault (Parsed (Expr Float (some .number)))
  | 0, run, c => .ok (ofRun .product run, c)
  | bound + 1, run, c =>
      if isFactorSign c.peek? then do
        let (e, after) ← unary c.advance
        let right ← operand .number c.advance.position e
        factors unary bound
          (if c.peek? = some .star then run ++ [right] else [.divide (ofRun .product run) right])
          after
      else .ok (ofRun .product run, c)

def factorsAfter (unary : Parser) (start : Nat) (first : Tree) (c : Cursor Token) :
    Except Fault (Parsed Tree) :=
  if isFactorSign c.peek? then do
    let first ← operand .number start first
    let (e, after) ← factors unary c.rest.length [first] c
    return (.typed e, after)
  else .ok (first, c)

def multiplicative (unary : Parser) : Parser := fun c => do
  let (first, after) ← unary c
  factorsAfter unary c.position first after

inductive TermSign where
  | plus
  | minus
  /-- A minus sign that is part of a number, which is given without it. -/
  | minusNumber (magnitude : Float)

def termSign? : Token → Option TermSign
  | .plus => some .plus
  | .minus => some .minus
  | .number x => if Double.isNegative x then some (.minusNumber (-x)) else none
  | _ => none

def term (unary : Parser) (sign : TermSign) (c : Cursor Token) :
    Except Fault (Parsed (Expr Float (some .number))) :=
  match sign with
  | .minusNumber x => do
      let (e, after) ← factorsAfter unary c.position (.typed (.number x)) c.advance
      return (← operand .number c.position e, after)
  | _ => do
      let (e, after) ← multiplicative unary c.advance
      return (← operand .number c.advance.position e, after)

/-- Reads the terms behind `+` and `-`. The run holds what `+` has joined since the last `-`. -/
def terms (unary : Parser) :
    Nat → List (Expr Float (some .number)) → Cursor Token →
      Except Fault (Parsed (Expr Float (some .number)))
  | 0, run, c => .ok (ofRun .sum run, c)
  | bound + 1, run, c =>
      match c.peek?.bind termSign? with
      | none => .ok (ofRun .sum run, c)
      | some sign => do
          let (right, after) ← term unary sign c
          terms unary bound
            (match sign with
              | .plus => run ++ [right]
              | _ => [.subtract (ofRun .sum run) right])
            after

def additive (unary : Parser) : Parser := fun c => do
  let (first, after) ← multiplicative unary c
  match after.peek?.bind termSign? with
  | none => return (first, after)
  | some _ =>
      let first ← operand .number c.position first
      let (e, after) ← terms unary after.rest.length [first] after
      return (.typed e, after)

def comparison? : Token → Option Comparison
  | .comparison op => some op
  | _ => none

def relational (unary : Parser) : Parser := fun c => do
  let (left, after) ← additive unary c
  match after.peek?.bind comparison? with
  | none => return (left, after)
  | some op =>
      let left ← operand .number c.position left
      let (right, final) ← additive unary after.advance
      let right ← operand .number after.advance.position right
      return (.typed (.compare op left right), final)

def equality (unary : Parser) : Parser := fun c => do
  let (left, after) ← relational unary c
  if after.peek? = some .equal then
    let (right, final) ← relational unary after.advance
    return (.typed (.equal left right), final)
  else return (left, after)

def isLogical (op : Logical) : Option Token → Bool
  | some (.logical found _) => found == op
  | _ => false

def moreOperands (op : Logical) (part : Parser) :
    Nat → Cursor Token → Except Fault (Parsed (List (Expr Float (some .boolean))))
  | 0, c => .ok ([], c)
  | bound + 1, c =>
      if isLogical op c.peek? then do
        let (e, after) ← part c.advance
        let e ← operand .boolean c.advance.position e
        let (rest, final) ← moreOperands op part bound after
        return (e :: rest, final)
      else .ok ([], c)

/-- A level whose operands are read by `part` and joined by a logical operator. -/
def junction (op : Logical) (part : Parser) : Parser := fun c => do
  let (first, after) ← part c
  if isLogical op after.peek? then
    let first ← operand .boolean c.position first
    let (rest, final) ← moreOperands op part after.rest.length after
    return (.typed (.logic op (first :: rest)), final)
  else return (first, after)

def expression (unary : Parser) : Parser :=
  junction .or (junction .and (equality unary))

/-- Reads arguments, each with the token it begins at, up to the closing parenthesis. -/
def moreArguments (whole : Parser) : Nat → Cursor Token → Except Fault (Parsed (List (Nat × Tree)))
  | 0, _ => .error (.unexpectedEnd .expression)
  | bound + 1, c => do
      let (e, after) ← whole c
      match after.peek? with
      | some .comma =>
          let (rest, final) ← moreArguments whole bound after.advance
          return ((c.position, e) :: rest, final)
      | some .rightParen => return ([(c.position, e)], after.advance)
      | some found => .error (.expectedToken .rightParen found after.position)
      | none => .error (.unexpectedEnd .commaOrRightParen)

def arguments (whole : Parser) (c : Cursor Token) :
    Except Fault (Parsed (List (Nat × Tree))) := do
  let inside ← expect .leftParen .leftParen c
  if inside.peek? = some .rightParen then return ([], inside.advance)
  else moreArguments whole inside.rest.length inside

def call (function : Function) (position : Nat) (args : List (Nat × Tree)) :
    Except Fault (Expr Float (some .number)) :=
  match function, args with
  | .fold op, [] => .error (.argumentCount (.fold op) 0 position)
  | .fold op, args => do
      return .chain op (← args.mapM fun arg => operand .number arg.1 arg.2)
  | .length, [(start, e)] => do return .length (← operand .array start e)
  | .length, args => .error (.argumentCount .length args.length position)

/-- Reads a sign or a negation with its operand, or an expression that is no operator's. At most
`bound` tokens are left. -/
def unary : Nat → Parser
  | 0, _ => .error (.unexpectedEnd .expression)
  | bound + 1, c =>
      match c.peek? with
      | none => .error (.unexpectedEnd .expression)
      | some .minus => do
          let (e, after) ← unary bound c.advance
          return (.typed (.negate (← operand .number c.advance.position e)), after)
      | some .not => do
          let (e, after) ← unary bound c.advance
          return (.typed (.not (← operand .boolean c.advance.position e)), after)
      | some (.number x) => .ok (.typed (.number x), c.advance)
      | some (.boolean b) => .ok (.typed (.boolean b), c.advance)
      | some (.string s) => .ok (.typed (.string s), c.advance)
      | some (.path p) =>
          if c.advance.peek? = some .otherwise then do
            let (default, after) ← unary bound c.advance.advance
            return (.withDefault p default, after)
          else .ok (.path p, c.advance)
      | some .leftParen => do
          let (e, after) ← expression (unary bound) c.advance
          return (e, ← expect .rightParen .rightParen after)
      | some (.function f) => do
          let (args, after) ← arguments (expression (unary bound)) c.advance
          return (.typed (← call f c.position args), after)
      | some found => .error (.unexpectedToken found c.position)

/-- Reads all of the tokens as one expression. -/
def ofTokens (tokens : List Token) : Except Fault Tree := do
  let (e, after) ← expression (unary tokens.length) (Cursor.ofList tokens)
  match after.peek? with
  | none => return e
  | some found => .error (.unexpectedToken found after.position)

end PathExpr.Expr
