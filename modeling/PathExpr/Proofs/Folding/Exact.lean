import Mathlib.Algebra.Field.Rat
import Mathlib.Algebra.Order.Ring.Rat
import Mathlib.Data.List.Perm.Basic
import PathExpr.Proofs.Folding.Refines

set_option autoImplicit false

namespace PathExpr

/-- Arithmetic in which the order and the grouping of a sum or a product do not matter. Nothing is
asked of the other operations and the comparisons. -/
class ExactArithmetic (ν : Type) [Arithmetic ν] : Prop where
  add_assoc (a b c : ν) : Arithmetic.add (Arithmetic.add a b) c =
    Arithmetic.add a (Arithmetic.add b c)
  add_comm (a b : ν) : Arithmetic.add a b = Arithmetic.add b a
  zero_add (a : ν) : Arithmetic.add Arithmetic.zero a = a
  mul_assoc (a b c : ν) : Arithmetic.mul (Arithmetic.mul a b) c =
    Arithmetic.mul a (Arithmetic.mul b c)
  mul_comm (a b : ν) : Arithmetic.mul a b = Arithmetic.mul b a
  one_mul (a : ν) : Arithmetic.mul Arithmetic.one a = a
  eq_zero_of_isZero (a : ν) : Arithmetic.isZero a = true → a = Arithmetic.zero
  eq_one_of_isOne (a : ν) : Arithmetic.isOne a = true → a = Arithmetic.one

namespace Associative

variable {ν : Type} [Arithmetic ν] [ExactArithmetic ν] (op : Associative)

theorem apply_assoc (a b c : ν) : op.apply (op.apply a b) c = op.apply a (op.apply b c) := by
  cases op
  · exact ExactArithmetic.add_assoc a b c
  · exact ExactArithmetic.mul_assoc a b c

theorem apply_comm (a b : ν) : op.apply a b = op.apply b a := by
  cases op
  · exact ExactArithmetic.add_comm a b
  · exact ExactArithmetic.mul_comm a b

theorem identity_apply (a : ν) : op.apply op.identity a = a := by
  cases op
  · exact ExactArithmetic.zero_add a
  · exact ExactArithmetic.one_mul a

theorem apply_identity (a : ν) : op.apply a op.identity = a := by
  rw [apply_comm, identity_apply]

theorem eq_identity {op : Associative} {a : ν} (isIdentity : op.isIdentity a = true) :
    a = op.identity := by
  cases op
  · exact ExactArithmetic.eq_zero_of_isZero a isIdentity
  · exact ExactArithmetic.eq_one_of_isOne a isIdentity

instance : RightCommutative (op.apply : ν → ν → ν) where
  right_comm a b c := by rw [apply_assoc, apply_comm op b c, ← apply_assoc]

theorem foldl_apply (acc : ν) (operands : List ν) :
    operands.foldl op.apply acc = op.apply acc (operands.foldl op.apply op.identity) := by
  induction operands generalizing acc with
  | nil => exact (op.apply_identity acc).symm
  | cons first rest ih =>
      rw [List.foldl_cons, List.foldl_cons, ih, ih (op.apply op.identity first), identity_apply,
        apply_assoc]

end Associative

namespace Expr

open Traced (Refines)

variable {ν : Type} [Arithmetic ν] [ExactArithmetic ν] {ctx : Context ν}

theorem foldl_chainOperands (op : Associative) (acc : ν) (e : Expr ν (some .number)) :
    (values ctx (chainOperands op e)).foldl op.apply acc = op.apply acc (evaluate ctx e).value := by
  unfold chainOperands
  split
  · rename_i inner operands
    by_cases same : inner = op
    · rw [if_pos same, same, evaluate_chain, Associative.foldl_apply]
    · rw [if_neg same]
      rfl
  · rfl

theorem foldl_flatMap_chainOperands (op : Associative) (acc : ν)
    (operands : List (Expr ν (some .number))) :
    (values ctx (operands.flatMap (chainOperands op))).foldl op.apply acc =
      (values ctx operands).foldl op.apply acc := by
  induction operands generalizing acc with
  | nil => rfl
  | cons first rest ih =>
      rw [List.flatMap_cons, values_append, List.foldl_append, foldl_chainOperands, ih]
      rfl

/-- The literals can be taken out of a chain and joined to the rest of it. -/
theorem foldl_values_eq (op : Associative) (operands : List (Expr ν (some .number))) :
    (values ctx operands).foldl op.apply op.identity =
      op.apply ((values ctx (operands.filter fun e => e.number?.isNone)).foldl op.apply op.identity)
        ((operands.filterMap number?).foldl op.apply op.identity) := by
  have apart := (List.filter_append_perm (fun e => e.number?.isNone) operands).symm.map
    fun e => (evaluate ctx e).value
  calc (values ctx operands).foldl op.apply op.identity
      = (values ctx (operands.filter (fun e => e.number?.isNone) ++
          operands.filter fun e => !e.number?.isNone)).foldl op.apply op.identity :=
        apart.foldl_eq op.identity
    _ = _ := by
        rw [values_append, List.foldl_append, values_filter_literals, Associative.foldl_apply]

theorem evaluate_chainOf (op : Associative) (operands : List (Expr ν (some .number))) :
    evaluate ctx (chainOf op operands) = evaluate ctx (.chain op operands) := by
  have value : (evaluate ctx (chainOf op operands)).value =
      (evaluate ctx (.chain op operands)).value := by
    rw [evaluate_chain, ← foldl_flatMap_chainOperands, foldl_values_eq]
    unfold chainOf
    generalize operands.flatMap (chainOperands op) = joined
    dsimp only
    split
    · rename_i noRest
      rw [List.isEmpty_iff.mp noRest, evaluate]
      exact (op.identity_apply _).symm
    · split
      · rename_i isIdentity
        rw [Associative.eq_identity isIdentity, op.apply_identity, evaluate_chain]
      · rw [evaluate_chain, values_append, List.foldl_append]
        simp only [values, List.map_cons, List.map_nil, List.foldl_cons, List.foldl_nil, evaluate,
          Traced.value_pure]
  have lookups : (evaluate ctx (chainOf op operands)).lookups = allLookups ctx operands :=
    lookups_chainOf op operands
  rw [evaluate_chain] at value ⊢
  exact congrArg₂ Traced.mk value lookups

theorem normalize_refines {k : Option Kind} (e : Expr ν k) :
    Refines (evaluate ctx e.normalize) (evaluate ctx e) := by
  have faithful : Faithful ctx e := by
    apply faithful_of_chains
    intro op operands _ each
    rw [evaluate_chainOf, evaluate, evaluate]
    exact evaluateChain_refines fun o isOperand => (each o isOperand).self
  exact faithful.self

/-- In exact arithmetic folding keeps every result, and it adds and reorders no lookups. -/
theorem evaluate_normalize_of_exact (ctx : Context ν) {k : Option Kind} (e : Expr ν k) :
    (evaluate ctx e.normalize).value = (evaluate ctx e).value ∧
      (evaluate ctx e.normalize).lookups.Sublist (evaluate ctx e).lookups := by
  have refines : Refines (evaluate ctx e.normalize) (evaluate ctx e) := normalize_refines e
  exact ⟨refines.value, refines.lookups⟩

end Expr

/-- The rationals, with division by zero giving zero. -/
instance : Arithmetic ℚ where
  zero := 0
  one := 1
  add := (· + ·)
  mul := (· * ·)
  neg := (- ·)
  sub := (· - ·)
  div := (· / ·)
  ofCount n := n
  isZero x := decide (x = 0)
  isOne x := decide (x = 1)
  equal x y := decide (x = y)
  compare
    | .less, x, y => decide (x < y)
    | .lessEqual, x, y => decide (x ≤ y)
    | .greater, x, y => decide (y < x)
    | .greaterEqual, x, y => decide (y ≤ x)

instance : ExactArithmetic ℚ where
  add_assoc := add_assoc
  add_comm := add_comm
  zero_add := zero_add
  mul_assoc := mul_assoc
  mul_comm := mul_comm
  one_mul := one_mul
  eq_zero_of_isZero _ isZero := of_decide_eq_true isZero
  eq_one_of_isOne _ isOne := of_decide_eq_true isOne

namespace Expr

/-- With a third at every path, `sum(1/3, $, sum($, 2/3)) < 1 || true` makes two lookups. Its sum
is normalized to `sum($, $, 1)`, and the whole to `true`, which makes none. -/
theorem evaluate_normalize_thirds :
    let ctx : Context ℚ := ⟨fun
      | some .number, _ => some (1 / 3 : ℚ)
      | _, _ => none⟩
    let total : Expr ℚ (some .number) :=
      .chain .sum [.number (1 / 3), .path .root, .chain .sum [.path .root, .number (2 / 3)]]
    let e : Expr ℚ (some .boolean) := .logic .or [.compare .less total (.number 1), .boolean true]
    (evaluate ctx total.normalize).value = (evaluate ctx total).value ∧
      (evaluate ctx e).lookups.length = 2 ∧ (evaluate ctx e.normalize).lookups.length = 0 ∧
      (evaluate ctx e.normalize).value = (evaluate ctx e).value ∧
      (evaluate ctx e.normalize).lookups.Sublist (evaluate ctx e).lookups := by
  intro ctx total e
  have whole := evaluate_normalize_of_exact ctx e
  have part := evaluate_normalize_of_exact ctx total
  exact ⟨part.1, by decide +kernel, by decide +kernel, whole⟩

end Expr

end PathExpr
