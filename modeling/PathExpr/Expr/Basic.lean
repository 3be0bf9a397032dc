import PathExpr.Kind
import PathExpr.Operator
import PathExpr.Path

set_option autoImplicit false

namespace PathExpr

/-- The type of a tree says what it evaluates to: `Expr ν (some k)` to something of kind `k`, `Expr
ν none` to something whose kind shows only then. So no tree applies an operator to operands that it
does not serve. -/
inductive Expr (ν : Type) : Option Kind → Type where
  /-- What is found at a path. -/
  | path {k : Option Kind} (path : Path) : Expr ν k
  /-- What is found at a path, or the default if nothing is. -/
  | withDefault {k : Option Kind} (path : Path) (default : Expr ν k) : Expr ν k
  /-- An expression of a known kind where any kind will do. -/
  | typed {k : Kind} (e : Expr ν (some k)) : Expr ν none
  | number (value : ν) : Expr ν (some .number)
  | negate (e : Expr ν (some .number)) : Expr ν (some .number)
  /-- The sum or the product of the operands, from left to right. -/
  | chain (op : Associative) (operands : List (Expr ν (some .number))) : Expr ν (some .number)
  | subtract (left right : Expr ν (some .number)) : Expr ν (some .number)
  | divide (left right : Expr ν (some .number)) : Expr ν (some .number)
  /-- The number of elements. -/
  | length (array : Expr ν (some .array)) : Expr ν (some .number)
  | boolean (value : Bool) : Expr ν (some .boolean)
  | not (e : Expr ν (some .boolean)) : Expr ν (some .boolean)
  | compare (op : Comparison) (left right : Expr ν (some .number)) : Expr ν (some .boolean)
  /-- Whether two results are equal strings, numbers or booleans. -/
  | equal (left right : Expr ν none) : Expr ν (some .boolean)
  /-- The operands joined by an operator, up to the first one that decides the result. -/
  | logic (op : Logical) (operands : List (Expr ν (some .boolean))) : Expr ν (some .boolean)
  | string (text : String) : Expr ν (some .string)

namespace Expr

variable {ν : Type} {k : Option Kind}

def kind? : Expr ν none → Option Kind
  | .typed (k := k) _ => some k
  | .path _ => none
  | .withDefault _ _ => none

def number? : Expr ν (some .number) → Option ν
  | .number x => some x
  | _ => none

def boolean? : Expr ν (some .boolean) → Option Bool
  | .boolean b => some b
  | _ => none

-- Functions on trees have companions for the operands of chains and of logical operators.
mutual

/-- The number of nodes. Giving a kind to an expression adds none. -/
def nodeCount {k : Option Kind} : Expr ν k → Nat
  | .path _ => 1
  | .withDefault _ d => 1 + d.nodeCount
  | .typed e => e.nodeCount
  | .number _ => 1
  | .negate e => 1 + e.nodeCount
  | .chain _ operands => 1 + numbersNodeCount operands
  | .subtract l r => 1 + l.nodeCount + r.nodeCount
  | .divide l r => 1 + l.nodeCount + r.nodeCount
  | .length a => 1 + a.nodeCount
  | .boolean _ => 1
  | .not e => 1 + e.nodeCount
  | .compare _ l r => 1 + l.nodeCount + r.nodeCount
  | .equal l r => 1 + l.nodeCount + r.nodeCount
  | .logic _ operands => 1 + booleansNodeCount operands
  | .string _ => 1

def numbersNodeCount : List (Expr ν (some .number)) → Nat
  | [] => 0
  | e :: rest => e.nodeCount + numbersNodeCount rest

def booleansNodeCount : List (Expr ν (some .boolean)) → Nat
  | [] => 0
  | e :: rest => e.nodeCount + booleansNodeCount rest

end

mutual

/-- Equality of trees, with numbers compared as numbers. -/
def same [Arithmetic ν] {k j : Option Kind} : Expr ν k → Expr ν j → Bool
  | .path p, .path q => k == j && p == q
  | .withDefault p d, .withDefault q e => p == q && same d e
  | .typed d, .typed e => same d e
  | .number x, .number y => Arithmetic.equal x y
  | .negate d, .negate e => same d e
  | .chain op ds, .chain op' es => op == op' && sameNumbers ds es
  | .subtract l r, .subtract l' r' => same l l' && same r r'
  | .divide l r, .divide l' r' => same l l' && same r r'
  | .length d, .length e => same d e
  | .boolean b, .boolean c => b == c
  | .not d, .not e => same d e
  | .compare op l r, .compare op' l' r' => op == op' && same l l' && same r r'
  | .equal l r, .equal l' r' => same l l' && same r r'
  | .logic op ds, .logic op' es => op == op' && sameBooleans ds es
  | .string s, .string t => s == t
  | _, _ => false

def sameNumbers [Arithmetic ν] :
    List (Expr ν (some .number)) → List (Expr ν (some .number)) → Bool
  | [], [] => true
  | d :: ds, e :: es => same d e && sameNumbers ds es
  | _, _ => false

def sameBooleans [Arithmetic ν] :
    List (Expr ν (some .boolean)) → List (Expr ν (some .boolean)) → Bool
  | [], [] => true
  | d :: ds, e :: es => same d e && sameBooleans ds es
  | _, _ => false

end

/-- Gives an expression a kind: its paths are then asked for that kind only. Fails with the kind
that the expression already has. -/
def narrow (k : Kind) : {j : Option Kind} → Expr ν j → Except Kind (Expr ν (some k))
  | none, .path p => .ok (.path p)
  | none, .withDefault p d => (narrow k d).map (.withDefault p)
  | none, .typed e => narrow k e
  | some j, e => if same : j = k then .ok (same ▸ e) else .error j

theorem narrow_typed (k : Kind) (e : Expr ν (some k)) : narrow k (.typed e) = .ok e := by
  simp only [narrow, ↓reduceDIte]

end Expr

end PathExpr
