import PathExpr.Proofs.Folding.Basic
import PathExpr.Proofs.Induction

set_option autoImplicit false

namespace PathExpr

namespace Traced

variable {α β : Type}

/-- The same result for some of the lookups, in the same order. -/
structure Refines (s t : Traced α) : Prop where
  value : s.value = t.value
  lookups : s.lookups.Sublist t.lookups

namespace Refines

theorem refl (t : Traced α) : Refines t t := ⟨rfl, List.Sublist.refl _⟩

theorem trans {r s t : Traced α} (first : Refines r s) (second : Refines s t) : Refines r t :=
  ⟨first.value.trans second.value, first.lookups.trans second.lookups⟩

theorem map (f : α → β) {s t : Traced α} (refines : Refines s t) : Refines (s.map f) (t.map f) :=
  ⟨congrArg f refines.value, refines.lookups⟩

/-- Both steps may make fewer lookups; the second one starts from the same result. -/
theorem bind {s t : Traced α} {f g : α → Traced β} (first : Refines s t)
    (next : ∀ a, Refines (f a) (g a)) : Refines (s.bind f) (t.bind g) := by
  have second := next t.value
  constructor
  · rw [value_bind, value_bind, first.value]
    exact second.value
  · rw [lookups_bind, lookups_bind, first.value]
    exact first.lookups.append second.lookups

end Refines

end Traced

namespace Expr

open Traced (Refines)

variable {ν : Type} [Arithmetic ν] {ctx : Context ν}

theorem evaluateChain_refines {op : Associative} {acc : ν} {operands : List (Expr ν (some .number))}
    (each : ∀ e ∈ operands, Refines (evaluate ctx e.normalize) (evaluate ctx e)) :
    Refines (evaluateChain ctx op acc (operands.map normalize))
      (evaluateChain ctx op acc operands) := by
  induction operands generalizing acc with
  | nil => exact Refines.refl _
  | cons first rest ih =>
      rw [List.map_cons, evaluateChain, evaluateChain]
      apply Refines.bind (each first List.mem_cons_self)
      intro x
      exact ih fun e inRest => each e (List.mem_cons_of_mem first inRest)

theorem evaluateLogic_refines {op : Logical} {operands : List (Expr ν (some .boolean))}
    (each : ∀ e ∈ operands, Refines (evaluate ctx e.normalize) (evaluate ctx e)) :
    Refines (evaluateLogic ctx op (operands.map normalize)) (evaluateLogic ctx op operands) := by
  induction operands with
  | nil => exact Refines.refl _
  | cons first rest ih =>
      rw [List.map_cons, evaluateLogic, evaluateLogic]
      apply Refines.bind (each first List.mem_cons_self)
      intro b
      by_cases decides : b = op.absorbing
      · rw [if_pos decides, if_pos decides]
        exact Refines.refl _
      · rw [if_neg decides, if_neg decides]
        exact ih fun e inRest => each e (List.mem_cons_of_mem first inRest)

/-- What stands behind the deciding literal is not evaluated any more. -/
theorem logicOf_refines (op : Logical) (operands : List (Expr ν (some .boolean))) :
    Refines (evaluate ctx (logicOf op operands)) (evaluate ctx (.logic op operands)) := by
  rw [evaluate, ← evaluateLogic_flatMap_logicOperands]
  unfold logicOf
  generalize operands.flatMap (logicOperands op) = joined
  dsimp only
  by_cases decided : .boolean op.absorbing ∈ joined
  · have found : joined.any (fun e => e.boolean? == some op.absorbing) = true :=
      List.any_eq_true.mpr ⟨_, decided, beq_self_eq_true _⟩
    rw [if_pos found, evaluate]
    constructor
    · exact (evaluateLogic_value_of_absorbing decided).symm
    · exact List.nil_sublist _
  · have missing : ¬joined.any (fun e => e.boolean? == some op.absorbing) = true := by
      intro found
      obtain ⟨e, inJoined, isAbsorbing⟩ := List.any_eq_true.mp found
      rw [eq_boolean_of_boolean? (eq_of_beq isAbsorbing)] at inJoined
      exact decided inJoined
    rw [if_neg missing, ← evaluateLogic_filter decided]
    split
    · rename_i noRest
      rw [List.isEmpty_iff.mp noRest, evaluate, evaluateLogic]
      exact Refines.refl _
    · rw [evaluate]
      exact Refines.refl _

/-- Folding keeps the results of a tree and of all trees inside it. -/
def Faithful (ctx : Context ν) {k : Option Kind} (e : Expr ν k) : Prop :=
  ∀ s ∈ e.subtrees, Refines (evaluate ctx s.2.normalize) (evaluate ctx s.2)

theorem Faithful.self {k : Option Kind} {e : Expr ν k} (faithful : Faithful ctx e) :
    Refines (evaluate ctx e.normalize) (evaluate ctx e) :=
  faithful ⟨k, e⟩ (self_mem_subtrees e)

theorem Faithful.cons {k : Option Kind} {e : Expr ν k}
    (here : Refines (evaluate ctx e.normalize) (evaluate ctx e))
    (inner : ∀ s ∈ e.inside, Refines (evaluate ctx s.2.normalize) (evaluate ctx s.2)) :
    Faithful ctx e :=
  List.forall_mem_cons.2 ⟨here, inner⟩

theorem Faithful.leaf {k : Option Kind} {e : Expr ν k} (unchanged : e.normalize = e)
    (isLeaf : e.inside = []) : Faithful ctx e := by
  apply Faithful.cons
  · rw [unchanged]
    exact Refines.refl _
  · rw [isLeaf]
    exact List.forall_mem_nil _

theorem Faithful.subtree {k : Option Kind} {e : Expr ν k} (faithful : Faithful ctx e)
    {s : Sigma (Expr ν)} (isSubtree : s ∈ e.subtrees) : Faithful ctx s.2 :=
  fun t inSubtree => faithful t (mem_subtrees_trans isSubtree inSubtree)

theorem Faithful.operand {op : Associative} {operands : List (Expr ν (some .number))}
    (faithful : Faithful ctx (.chain op operands)) {o : Expr ν (some .number)}
    (isOperand : o ∈ operands) : Faithful ctx o :=
  faithful.subtree (operand_mem_subtrees isOperand)

theorem faithful_of_chains {k : Option Kind} {e : Expr ν k}
    (chains : ∀ op operands, ⟨_, .chain op operands⟩ ∈ e.subtrees →
      (∀ o ∈ operands, Faithful ctx o) →
      Refines (evaluate ctx (chainOf op (operands.map normalize)))
        (evaluate ctx (.chain op operands))) :
    Faithful ctx e := by
  induction e using induct with
  | path p => exact .leaf rfl rfl
  | withDefault p d ih =>
      have inner := ih fun op operands inDefault =>
        chains op operands (List.mem_cons_of_mem _ inDefault)
      refine .cons ?_ inner
      rw [normalize, evaluate, evaluate]
      apply Refines.bind (Refines.refl _)
      intro found
      cases found with
      | some x => exact Refines.refl _
      | none => exact inner.self
  | typed e ih =>
      have inner := ih fun op operands inOperand =>
        chains op operands (List.mem_cons_of_mem _ inOperand)
      refine .cons ?_ inner
      rw [normalize, evaluate, evaluate]
      exact inner.self.map _
  | number x => exact .leaf rfl rfl
  | negate e ih =>
      have inner := ih fun op operands inOperand =>
        chains op operands (List.mem_cons_of_mem _ inOperand)
      refine .cons ?_ inner
      rw [normalize, evaluate_negateOf, evaluate, evaluate]
      exact inner.self.map _
  | chain op operands ih =>
      have each : ∀ o ∈ operands, Faithful ctx o := by
        intro o isOperand
        apply ih o isOperand
        intro op' operands' inOperand
        exact chains op' operands' (mem_subtrees_trans (operand_mem_subtrees isOperand) inOperand)
      apply Faithful.cons
      · rw [normalize_chain]
        exact chains op operands (self_mem_subtrees _) each
      · rw [inside_chain]
        exact List.forall_mem_flatMap.2 each
  | subtract l r ihLeft ihRight =>
      have left := ihLeft fun op operands inLeft =>
        chains op operands (List.mem_cons_of_mem _ (List.mem_append_left _ inLeft))
      have right := ihRight fun op operands inRight =>
        chains op operands (List.mem_cons_of_mem _ (List.mem_append_right _ inRight))
      refine .cons ?_ (List.forall_mem_append.2 ⟨left, right⟩)
      rw [normalize, evaluate_subtractOf, evaluate, evaluate]
      exact left.self.bind fun a => right.self.map _
  | divide l r ihLeft ihRight =>
      have left := ihLeft fun op operands inLeft =>
        chains op operands (List.mem_cons_of_mem _ (List.mem_append_left _ inLeft))
      have right := ihRight fun op operands inRight =>
        chains op operands (List.mem_cons_of_mem _ (List.mem_append_right _ inRight))
      refine .cons ?_ (List.forall_mem_append.2 ⟨left, right⟩)
      rw [normalize, evaluate_divideOf, evaluate, evaluate]
      exact left.self.bind fun a => right.self.map _
  | length a ih =>
      have inner := ih fun op operands inOperand =>
        chains op operands (List.mem_cons_of_mem _ inOperand)
      refine .cons ?_ inner
      rw [normalize, evaluate, evaluate]
      exact inner.self.map _
  | boolean b => exact .leaf rfl rfl
  | not e ih =>
      have inner := ih fun op operands inOperand =>
        chains op operands (List.mem_cons_of_mem _ inOperand)
      refine .cons ?_ inner
      rw [normalize, evaluate_notOf, evaluate, evaluate]
      exact inner.self.map _
  | compare op l r ihLeft ihRight =>
      have left := ihLeft fun op' operands inLeft =>
        chains op' operands (List.mem_cons_of_mem _ (List.mem_append_left _ inLeft))
      have right := ihRight fun op' operands inRight =>
        chains op' operands (List.mem_cons_of_mem _ (List.mem_append_right _ inRight))
      refine .cons ?_ (List.forall_mem_append.2 ⟨left, right⟩)
      rw [normalize, evaluate_compareOf, evaluate, evaluate]
      exact left.self.bind fun a => right.self.map _
  | equal l r ihLeft ihRight =>
      have left := ihLeft fun op operands inLeft =>
        chains op operands (List.mem_cons_of_mem _ (List.mem_append_left _ inLeft))
      have right := ihRight fun op operands inRight =>
        chains op operands (List.mem_cons_of_mem _ (List.mem_append_right _ inRight))
      refine .cons ?_ (List.forall_mem_append.2 ⟨left, right⟩)
      rw [normalize, evaluate_equalOf, evaluate, evaluate]
      exact left.self.bind fun a => right.self.map _
  | logic op operands ih =>
      have each : ∀ o ∈ operands, Faithful ctx o := by
        intro o isOperand
        apply ih o isOperand
        intro op' operands' inOperand
        apply chains op' operands'
        rw [subtrees, inside_logic]
        exact List.mem_cons_of_mem _ (List.mem_flatMap.2 ⟨o, isOperand, inOperand⟩)
      apply Faithful.cons
      · rw [normalize_logic]
        apply (logicOf_refines op _).trans
        rw [evaluate, evaluate]
        exact evaluateLogic_refines fun o isOperand => (each o isOperand).self
      · rw [inside_logic]
        exact List.forall_mem_flatMap.2 each
  | string s => exact .leaf rfl rfl

end Expr

end PathExpr
