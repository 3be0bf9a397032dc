import PathExpr.Expr.Basic

set_option autoImplicit false

namespace PathExpr.Expr

variable {ν : Type} [Arithmetic ν]

def negateOf : Expr ν (some .number) → Expr ν (some .number)
  | .number x => .number (Arithmetic.neg x)
  | e => .negate e

def binaryOf {k : Kind} (node : Expr ν (some .number) → Expr ν (some .number) → Expr ν (some k))
    (result : ν → ν → Expr ν (some k)) (l r : Expr ν (some .number)) : Expr ν (some k) :=
  match l.number?, r.number? with
  | some a, some b => result a b
  | _, _ => node l r

def subtractOf : (left right : Expr ν (some .number)) → Expr ν (some .number) :=
  binaryOf .subtract fun a b => .number (Arithmetic.sub a b)

def divideOf : (left right : Expr ν (some .number)) → Expr ν (some .number) :=
  binaryOf .divide fun a b => .number (Arithmetic.div a b)

def compareOf (op : Comparison) : (left right : Expr ν (some .number)) → Expr ν (some .boolean) :=
  binaryOf (.compare op) fun a b => .boolean (Arithmetic.compare op a b)

/-- The operands that an operand of a chain contributes to it. -/
def chainOperands (op : Associative) : Expr ν (some .number) → List (Expr ν (some .number))
  | .chain inner operands => if inner = op then operands else [.chain inner operands]
  | e => [e]

/-- A chain of operands that are normal themselves. -/
def chainOf (op : Associative) (operands : List (Expr ν (some .number))) :
    Expr ν (some .number) :=
  let joined := operands.flatMap (chainOperands op)
  let literal := (joined.filterMap number?).foldl op.apply op.identity
  let rest := joined.filter fun e => e.number?.isNone
  if rest.isEmpty then .number literal
  else if op.isIdentity literal then .chain op rest
  else .chain op (rest ++ [.number literal])

def notOf : Expr ν (some .boolean) → Expr ν (some .boolean)
  | .boolean b => .boolean !b
  | e => .not e

/-- The result of comparing two literals of one kind. -/
def literalEqual? : Expr ν none → Expr ν none → Option Bool
  | .typed (.number a), .typed (.number b) => some (Arithmetic.equal a b)
  | .typed (.boolean a), .typed (.boolean b) => some (a == b)
  | .typed (.string a), .typed (.string b) => some (a == b)
  | _, _ => none

def equalOf (l r : Expr ν none) : Expr ν (some .boolean) :=
  match literalEqual? l r with
  | some result => .boolean result
  | none => .equal l r

def logicOperands (op : Logical) : Expr ν (some .boolean) → List (Expr ν (some .boolean))
  | .logic inner operands => if inner = op then operands else [.logic inner operands]
  | e => [e]

/-- A logical operator on operands that are normal themselves. -/
def logicOf (op : Logical) (operands : List (Expr ν (some .boolean))) : Expr ν (some .boolean) :=
  let joined := operands.flatMap (logicOperands op)
  let rest := joined.filter fun e => e.boolean?.isNone
  if joined.any fun e => e.boolean? == some op.absorbing then .boolean op.absorbing
  else if rest.isEmpty then .boolean op.identity
  else .logic op rest

mutual

/-- Folds constants. Operators whose operands are known are carried out, and operators inside their
like are joined to them; the literals of a sum or product become one literal behind the other
operands, and operands that change nothing are dropped. What depends on data stays. -/
def normalize {k : Option Kind} : Expr ν k → Expr ν k
  | .path p => .path p
  | .withDefault p d => .withDefault p d.normalize
  | .typed e => .typed e.normalize
  | .number x => .number x
  | .negate e => negateOf e.normalize
  | .chain op operands => chainOf op (normalizeNumbers operands)
  | .subtract l r => subtractOf l.normalize r.normalize
  | .divide l r => divideOf l.normalize r.normalize
  | .length a => .length a.normalize
  | .boolean b => .boolean b
  | .not e => notOf e.normalize
  | .compare op l r => compareOf op l.normalize r.normalize
  | .equal l r => equalOf l.normalize r.normalize
  | .logic op operands => logicOf op (normalizeBooleans operands)
  | .string s => .string s

def normalizeNumbers : List (Expr ν (some .number)) → List (Expr ν (some .number))
  | [] => []
  | e :: rest => e.normalize :: normalizeNumbers rest

def normalizeBooleans : List (Expr ν (some .boolean)) → List (Expr ν (some .boolean))
  | [] => []
  | e :: rest => e.normalize :: normalizeBooleans rest

end

theorem normalizeNumbers_eq (operands : List (Expr ν (some .number))) :
    normalizeNumbers operands = operands.map normalize := by
  induction operands with
  | nil => rfl
  | cons e rest ih => simp only [normalizeNumbers, ih, List.map_cons]

theorem normalizeBooleans_eq (operands : List (Expr ν (some .boolean))) :
    normalizeBooleans operands = operands.map normalize := by
  induction operands with
  | nil => rfl
  | cons e rest ih => simp only [normalizeBooleans, ih, List.map_cons]

theorem normalize_chain (op : Associative) (operands : List (Expr ν (some .number))) :
    normalize (.chain op operands) = chainOf op (operands.map normalize) := by
  rw [normalize, normalizeNumbers_eq]

theorem normalize_logic (op : Logical) (operands : List (Expr ν (some .boolean))) :
    normalize (.logic op operands) = logicOf op (operands.map normalize) := by
  rw [normalize, normalizeBooleans_eq]

theorem kind?_normalize (e : Expr ν none) : e.normalize.kind? = e.kind? := by
  cases e <;> rfl

end PathExpr.Expr
