import PathExpr.Proofs.Double.Sign
import PathExpr.Proofs.Folding.Regrouped

set_option autoImplicit false

namespace PathExpr

namespace Double

/-- Equal, or both not a number. -/
def Same (x y : Float) : Prop := (x == y) = true ∨ x.isNaN = true ∧ y.isNaN = true

instance (x y : Float) : Decidable (Same x y) := inferInstanceAs (Decidable (_ ∨ _))

theorem Same.refl (x : Float) : Same x x := by
  cases isNaN : x.isNaN with
  | true => exact .inr ⟨isNaN, isNaN⟩
  | false => exact .inl (beq_self isNaN)

/-- Numbers that are the same are one double, if they are not two zeros. -/
theorem eq_of_same {x y : Float} (same : Same x y)
    (zeros : x.isNaN = false → y.isNaN = false → ∀ s s', unpacked x = .zero s →
      unpacked y = .zero s' → s = s') : x = y := by
  rcases same with isEqual | ⟨isNaN, isNaN'⟩
  · rcases eq_or_zero_of_beq isEqual with same | ⟨s, s', left, right⟩
    · exact same
    · have minus : ∀ {z : Float} {t}, unpacked z = .zero t → z.isNaN = false := by
        intro z t isZero
        show (unpacked z).isNaN = false
        rw [isZero]
        rfl
      apply eq_of_unpacked_eq
      rw [left, right, zeros (minus left) (minus right) s s' left right]
  · exact eq_of_isNaN isNaN isNaN'

theorem sum_ne_negativeZero (terms : List Float) {acc : Float}
    (notNegative : unpacked acc ≠ .zero .negative) :
    unpacked (terms.foldl Associative.sum.apply acc) ≠ .zero .negative := by
  induction terms generalizing acc with
  | nil => exact notNegative
  | cons first rest ih =>
      rw [List.foldl_cons]
      exact ih (unpacked_add_ne notNegative)

theorem identity_ne_negativeZero :
    unpacked (Associative.sum.identity : Float) ≠ .zero .negative := by
  intro isZero
  cases isZero

/-- Whether an odd number of factors is negative. -/
def oddNegative (factors : List Float) : Bool :=
  factors.foldr (fun x odd => isNegative x ^^ odd) false

theorem oddNegative_append (first second : List Float) :
    oddNegative (first ++ second) = (oddNegative first ^^ oddNegative second) := by
  induction first with
  | nil => exact (Bool.false_xor _).symm
  | cons x rest ih =>
      show (isNegative x ^^ oddNegative (rest ++ second)) = _
      rw [ih, ← Bool.xor_assoc]
      rfl

theorem isNegative_product {factors : List Float} {acc : Float}
    (isNumber : (factors.foldl Associative.product.apply acc).isNaN = false) :
    acc.isNaN = false ∧ (∀ x ∈ factors, x.isNaN = false) ∧
      isNegative (factors.foldl Associative.product.apply acc) =
        (isNegative acc ^^ oddNegative factors) := by
  induction factors generalizing acc with
  | nil =>
      exact ⟨isNumber, List.forall_mem_nil _, (Bool.xor_false _).symm⟩
  | cons x rest ih =>
      obtain ⟨isNumber', further, sign⟩ := ih isNumber
      obtain ⟨left, right, sign'⟩ := isNegative_mul isNumber'
      refine ⟨left, List.forall_mem_cons.2 ⟨right, further⟩, ?_⟩
      rw [List.foldl_cons, sign]
      show (isNegative (acc * x) ^^ _) = (_ ^^ (isNegative x ^^ oddNegative rest))
      rw [sign', Bool.xor_assoc]

theorem isNegative_one : isNegative (Associative.product.identity : Float) = false := by
  decide +kernel

end Double

namespace Parts

open Double
open Traced (Refines)

def AreNumbers (parts : Parts Float) : Prop :=
  (∀ x ∈ parts.constants, x.isNaN = false) ∧ ∀ x ∈ parts.others, x.isNaN = false

/-- Whether an odd number of parts is negative. -/
def oddNegative (parts : Parts Float) : Bool :=
  Double.oddNegative parts.constants ^^ Double.oddNegative parts.others

theorem oddNegative_append (first second : Parts Float) :
    (first.append second).oddNegative = (first.oddNegative ^^ second.oddNegative) := by
  unfold oddNegative append
  dsimp only
  rw [Double.oddNegative_append, Double.oddNegative_append, Bool.xor_assoc, Bool.xor_assoc,
    Bool.xor_left_comm (Double.oddNegative second.constants)]

theorem isNegative_constant {parts : Parts Float}
    (isNumber : (parts.constant .product).isNaN = false) :
    (∀ x ∈ parts.constants, x.isNaN = false) ∧
      isNegative (parts.constant .product) = Double.oddNegative parts.constants := by
  obtain ⟨-, areNumbers, sign⟩ := isNegative_product isNumber
  rw [isNegative_one, Bool.false_xor] at sign
  exact ⟨areNumbers, sign⟩

theorem total_sum_ne (parts : Parts Float) : unpacked (parts.total .sum) ≠ .zero .negative := by
  unfold total constant
  split
  · exact sum_ne_negativeZero _ identity_ne_negativeZero
  · exact sum_ne_negativeZero _ identity_ne_negativeZero

theorem isNegative_of_isIdentity {x : Float}
    (isIdentity : Associative.product.isIdentity x = true) :
    x.isNaN = false ∧ isNegative x = false := by
  have isOne : (x == 1) = true := isIdentity
  have same : x = 1 := by
    rcases eq_or_zero_of_beq isOne with same | ⟨s, s', -, isZero⟩
    · exact same
    · cases isZero
  rw [same]
  exact ⟨by decide +kernel, by decide +kernel⟩

/-- Putting the constants together hides no part that is not a number, and keeps the sign. -/
theorem merged_product {parts : Parts Float} (areNumbers : (parts.merged .product).AreNumbers) :
    parts.AreNumbers ∧ (parts.merged .product).oddNegative = parts.oddNegative := by
  obtain ⟨constantIsNumber, othersAreNumbers⟩ := areNumbers
  unfold oddNegative
  unfold merged at constantIsNumber othersAreNumbers ⊢
  dsimp only at constantIsNumber othersAreNumbers ⊢
  by_cases isIdentity : Associative.product.isIdentity (parts.constant .product) = true
  · obtain ⟨isNumber, positive⟩ := isNegative_of_isIdentity isIdentity
    obtain ⟨constantsAreNumbers, sign⟩ := isNegative_constant isNumber
    rw [if_pos isIdentity, ← sign, positive]
    exact ⟨⟨constantsAreNumbers, othersAreNumbers⟩, rfl⟩
  · rw [if_neg isIdentity] at constantIsNumber ⊢
    have isNumber := constantIsNumber _ List.mem_cons_self
    obtain ⟨constantsAreNumbers, sign⟩ := isNegative_constant isNumber
    refine ⟨⟨constantsAreNumbers, othersAreNumbers⟩, ?_⟩
    show ((isNegative (parts.constant .product) ^^ false) ^^ _) = _
    rw [Bool.xor_false, sign]

theorem total_product {parts : Parts Float} (isNumber : (parts.total .product).isNaN = false) :
    parts.AreNumbers ∧ isNegative (parts.total .product) = parts.oddNegative := by
  unfold total at isNumber ⊢
  by_cases alone : parts.others.isEmpty = true
  · rw [if_pos alone] at isNumber ⊢
    obtain ⟨constantsAreNumbers, sign⟩ := isNegative_constant isNumber
    have noOthers := List.isEmpty_iff.1 alone
    unfold AreNumbers oddNegative
    rw [noOthers, sign]
    exact ⟨⟨constantsAreNumbers, List.forall_mem_nil _⟩, (Bool.xor_false _).symm⟩
  · rw [if_neg alone] at isNumber ⊢
    obtain ⟨-, areNumbers, sign⟩ := isNegative_product isNumber
    rw [List.forall_mem_append] at areNumbers
    obtain ⟨partsAreNumbers, merged⟩ := merged_product ⟨areNumbers.2, areNumbers.1⟩
    rw [isNegative_one, Bool.false_xor, Double.oddNegative_append, Bool.xor_comm] at sign
    exact ⟨partsAreNumbers, sign.trans merged⟩

end Parts

namespace Expr

open Double
open Traced (Refines)

variable {ctx : Context Float}

/-- The parts of operands have the signs of what the operands evaluate to, taken together. -/
theorem oddNegative_operandParts {operands : List (Expr Float (some .number))}
    (each : ∀ o ∈ operands, (evaluate ctx o).value.isNaN = false →
      (o.parts ctx .product).AreNumbers →
      (o.parts ctx .product).oddNegative = isNegative (evaluate ctx o).value)
    (numbers : ∀ x ∈ values ctx operands, x.isNaN = false)
    (areNumbers : (operandParts ctx .product operands).AreNumbers) :
    (operandParts ctx .product operands).oddNegative = oddNegative (values ctx operands) := by
  induction operands with
  | nil =>
      rw [operandParts]
      rfl
  | cons first rest ih =>
      rw [operandParts] at areNumbers ⊢
      obtain ⟨constants, others⟩ := areNumbers
      obtain ⟨firstConstants, restConstants⟩ := List.forall_mem_append.1 constants
      obtain ⟨firstOthers, restOthers⟩ := List.forall_mem_append.1 others
      obtain ⟨isNumber, restNumbers⟩ := List.forall_mem_cons.1 numbers
      have here := each first List.mem_cons_self isNumber ⟨firstConstants, firstOthers⟩
      have further := ih (fun o inRest => each o (List.mem_cons_of_mem first inRest)) restNumbers
        ⟨restConstants, restOthers⟩
      show _ = (isNegative (evaluate ctx first).value ^^ oddNegative (values ctx rest))
      rw [Parts.oddNegative_append, here, further]

theorem oddNegative_single (t : Traced Float) :
    (Parts.single t).oddNegative = isNegative t.value := by
  unfold Parts.single Parts.oddNegative
  split
  · show ((isNegative t.value ^^ false) ^^ false) = _
    rw [Bool.xor_false, Bool.xor_false]
  · show (false ^^ (isNegative t.value ^^ false)) = _
    rw [Bool.xor_false, Bool.false_xor]

/-- The parts of an operand have the sign of what it evaluates to. -/
theorem oddNegative_parts (e : Expr Float (some .number))
    (isNumber : (evaluate ctx e).value.isNaN = false)
    (areNumbers : (e.parts ctx .product).AreNumbers) :
    (e.parts ctx .product).oddNegative = isNegative (evaluate ctx e).value := by
  induction e using inductNumber with
  | chain inner operands ih =>
      have whole : evaluateChain ctx inner inner.identity operands =
          evaluate ctx (.chain inner operands) := by rw [evaluate]
      rw [parts, whole] at areNumbers ⊢
      by_cases joins :
          inner = .product ∧ ¬(evaluate ctx (.chain inner operands)).lookups.isEmpty = true
      · rw [if_pos joins] at areNumbers ⊢
        obtain ⟨rfl, -⟩ := joins
        obtain ⟨areNumbers', sign⟩ := Parts.merged_product areNumbers
        rw [evaluate_chain] at isNumber ⊢
        obtain ⟨-, numbers, sign'⟩ := isNegative_product isNumber
        rw [isNegative_one, Bool.false_xor] at sign'
        rw [sign, oddNegative_operandParts ih numbers areNumbers', ← sign']
      · rw [if_neg joins]
        exact oddNegative_single _
  | path p | withDefault p d _ | number x | negate e _ | subtract l r _ _ | divide l r _ _
  | length a =>
      rw [parts_of_ne_chain]
      · exact oddNegative_single _
      · intro inner operands isChain
        cases isChain

/-- If the total of the parts is the same as the result of a chain, it is that very double: a sum is
never negative zero, and the sign of a product is made of the signs of its factors in whatever
order. -/
theorem total_eq_of_same {op : Associative} {operands : List (Expr Float (some .number))}
    (same : Same ((operandParts ctx op operands).total op)
      (evaluate ctx (.chain op operands)).value) :
    (operandParts ctx op operands).total op = (evaluate ctx (.chain op operands)).value := by
  apply eq_of_same same
  rw [evaluate_chain]
  intro totalIsNumber chainIsNumber s s' totalIsZero chainIsZero
  cases op with
  | sum =>
      have total := Parts.total_sum_ne (operandParts ctx .sum operands)
      have chain := sum_ne_negativeZero (values ctx operands) identity_ne_negativeZero
      rw [totalIsZero] at total
      rw [chainIsZero] at chain
      cases s with
      | negative => exact absurd rfl total
      | positive =>
          cases s' with
          | negative => exact absurd rfl chain
          | positive => rfl
  | product =>
      obtain ⟨areNumbers, totalSign⟩ := Parts.total_product totalIsNumber
      obtain ⟨-, numbers, chainSign⟩ := isNegative_product chainIsNumber
      rw [isNegative_one, Bool.false_xor] at chainSign
      have signs : (s == .negative) = (s' == .negative) := by
        rw [← isNegative_of_zero totalIsZero, ← isNegative_of_zero chainIsZero, totalSign,
          chainSign]
        exact oddNegative_operandParts (fun o _ => oddNegative_parts o) numbers areNumbers
      cases s <;> cases s' <;> first | rfl | cases signs

/-- The same result, with numbers compared as numbers. -/
def SameResult : {k : Option Kind} → Result Float k → Result Float k → Prop
  | some .number, x, y => Same x y
  | none, some (.number x), some (.number y) => Same x y
  | _, r, r' => r = r'

theorem SameResult.refl {k : Option Kind} (r : Result Float k) : SameResult r r := by
  unfold SameResult
  split
  · exact Same.refl _
  · exact Same.refl _
  · rfl

theorem chainOf_refines {op : Associative} {operands : List (Expr Float (some .number))}
    (each : ∀ o ∈ operands, Faithful ctx o)
    (same : Same ((operandParts ctx op operands).total op)
      (evaluate ctx (.chain op operands)).value) :
    Refines (evaluate ctx (chainOf op (operands.map normalize)))
      (evaluate ctx (.chain op operands)) := by
  constructor
  · rw [value_chainOf op each, total_eq_of_same same]
  · have operandwise : Refines (evaluateChain ctx op op.identity (operands.map normalize))
        (evaluateChain ctx op op.identity operands) :=
      evaluateChain_refines fun o isOperand => (each o isOperand).self
    have lookups := operandwise.lookups
    rw [evaluateChain_eq] at lookups
    rw [lookups_chainOf, evaluate]
    exact lookups

/-- Folding gives the results of a tree and of all trees inside it exactly if it regroups no chain
among them to another number. -/
theorem sameResult_normalize_iff (ctx : Context Float) {k : Option Kind} (e : Expr Float k) :
    (∀ s ∈ e.subtrees,
      SameResult (evaluate ctx s.2.normalize).value (evaluate ctx s.2).value) ↔
      ∀ op operands, ⟨_, .chain op operands⟩ ∈ e.subtrees →
        Same ((operandParts ctx op operands).total op)
          (evaluate ctx (.chain op operands)).value := by
  constructor
  · intro results
    have regrouped : ∀ op operands, ⟨_, .chain op operands⟩ ∈ e.subtrees →
        (∀ o ∈ operands, Faithful ctx o) →
        Same ((operandParts ctx op operands).total op)
          (evaluate ctx (.chain op operands)).value := by
      intro op operands isSubtree each
      have here : Same (evaluate ctx (chain op operands).normalize).value
          (evaluate ctx (.chain op operands)).value := results _ isSubtree
      rw [normalize_chain, value_chainOf op each] at here
      exact here
    have faithful : Faithful ctx e := by
      apply faithful_of_chains
      intro op operands isSubtree each
      exact chainOf_refines each (regrouped op operands isSubtree each)
    intro op operands isSubtree
    apply regrouped op operands isSubtree
    intro o isOperand
    exact (faithful.subtree isSubtree).operand isOperand
  · intro totals s isSubtree
    have faithful : Faithful ctx e := by
      apply faithful_of_chains
      intro op operands isSubtree each
      exact chainOf_refines each (totals op operands isSubtree)
    rw [(faithful s isSubtree).value]
    exact SameResult.refl _

/-- With 2 to the 53rd at `$`, `sum(1, $, 1)` is that number, since each one is rounded away; it is
folded to `sum($, 2)`, which is two more. -/
theorem sameResult_normalize_fails :
    let ctx : Context Float := ⟨fun
      | some .number, _ => some (9007199254740992 : Float)
      | _, _ => none⟩
    let e : Expr Float none := .typed (.chain .sum [.number 1, .path .root, .number 1])
    ¬SameResult (evaluate ctx e.normalize).value (evaluate ctx e).value := by
  intro ctx e
  show ¬Same _ _
  decide +kernel

end Expr

end PathExpr
