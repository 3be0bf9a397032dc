import PathExpr.Expr.Evaluate
import PathExpr.Expr.Normalize

set_option autoImplicit false

namespace PathExpr.Expr

variable {ν : Type}

theorem eq_number_of_number? {e : Expr ν (some .number)} {x : ν} (isNumber : e.number? = some x) :
    e = .number x := by
  cases e <;> simp only [number?, reduceCtorEq, Option.some.injEq] at isNumber
  rw [isNumber]

theorem eq_boolean_of_boolean? {e : Expr ν (some .boolean)} {b : Bool}
    (isBoolean : e.boolean? = some b) : e = .boolean b := by
  cases e <;> simp only [boolean?, reduceCtorEq, Option.some.injEq] at isBoolean
  rw [isBoolean]

variable [Arithmetic ν] {ctx : Context ν}

theorem evaluate_negateOf (e : Expr ν (some .number)) :
    evaluate ctx (negateOf e) = evaluate ctx (.negate e) := by
  unfold negateOf
  split
  · simp only [evaluate]
    rfl
  · rfl

theorem evaluate_notOf (e : Expr ν (some .boolean)) :
    evaluate ctx (notOf e) = evaluate ctx (.not e) := by
  unfold notOf
  split
  · simp only [evaluate]
    rfl
  · rfl

theorem evaluate_binaryOf {k : Kind}
    {node : Expr ν (some .number) → Expr ν (some .number) → Expr ν (some k)}
    {result : ν → ν → Expr ν (some k)}
    (agrees : ∀ a b, evaluate ctx (result a b) = evaluate ctx (node (.number a) (.number b)))
    (l r : Expr ν (some .number)) :
    evaluate ctx (binaryOf node result l r) = evaluate ctx (node l r) := by
  unfold binaryOf
  split
  · rename_i a b left right
    rw [agrees, eq_number_of_number? left, eq_number_of_number? right]
  · rfl

theorem evaluate_subtractOf (l r : Expr ν (some .number)) :
    evaluate ctx (subtractOf l r) = evaluate ctx (.subtract l r) := by
  apply evaluate_binaryOf
  intro a b
  simp only [evaluate]
  rfl

theorem evaluate_divideOf (l r : Expr ν (some .number)) :
    evaluate ctx (divideOf l r) = evaluate ctx (.divide l r) := by
  apply evaluate_binaryOf
  intro a b
  simp only [evaluate]
  rfl

theorem evaluate_compareOf (op : Comparison) (l r : Expr ν (some .number)) :
    evaluate ctx (compareOf op l r) = evaluate ctx (.compare op l r) := by
  apply evaluate_binaryOf
  intro a b
  simp only [evaluate]
  rfl

theorem evaluate_equalOf (l r : Expr ν none) :
    evaluate ctx (equalOf l r) = evaluate ctx (.equal l r) := by
  unfold equalOf
  split
  · rename_i result known
    unfold literalEqual? at known
    split at known <;> cases known <;> simp only [evaluate] <;> rfl
  · rfl

theorem values_append (first second : List (Expr ν (some .number))) :
    values ctx (first ++ second) = values ctx first ++ values ctx second := List.map_append

theorem values_filter_literals (operands : List (Expr ν (some .number))) :
    values ctx (operands.filter fun e => !e.number?.isNone) = operands.filterMap number? := by
  induction operands with
  | nil => rfl
  | cons first rest ih =>
      cases known : first.number? with
      | none =>
          rw [List.filter_cons_of_neg (by rw [known]; exact Bool.false_ne_true), ih,
            List.filterMap_cons_none known]
      | some x =>
          rw [List.filter_cons_of_pos (by rw [known]; rfl),
            List.filterMap_cons_some known, ← ih, eq_number_of_number? known]
          simp only [values, List.map_cons, evaluate, Traced.value_pure]

theorem allLookups_filter (operands : List (Expr ν (some .number))) :
    allLookups ctx (operands.filter fun e => e.number?.isNone) = allLookups ctx operands := by
  induction operands with
  | nil => rfl
  | cons first rest ih =>
      cases known : first.number? with
      | none =>
          rw [List.filter_cons_of_pos (by rw [known]; rfl)]
          unfold allLookups at ih ⊢
          rw [List.flatMap_cons, List.flatMap_cons, ih]
      | some x =>
          rw [List.filter_cons_of_neg (by rw [known]; exact Bool.false_ne_true), ih]
          unfold allLookups
          rw [List.flatMap_cons, eq_number_of_number? known]
          simp only [evaluate, Traced.lookups_pure, List.nil_append]

theorem allLookups_chainOperands (op : Associative) (e : Expr ν (some .number)) :
    allLookups ctx (chainOperands op e) = (evaluate ctx e).lookups := by
  unfold chainOperands
  split
  · split
    · rw [evaluate_chain]
    · simp only [allLookups, List.flatMap_cons, List.flatMap_nil, List.append_nil]
  · simp only [allLookups, List.flatMap_cons, List.flatMap_nil, List.append_nil]

theorem allLookups_flatMap_chainOperands (op : Associative)
    (operands : List (Expr ν (some .number))) :
    allLookups ctx (operands.flatMap (chainOperands op)) = allLookups ctx operands := by
  unfold allLookups
  rw [List.flatMap_assoc]
  congr 1
  funext e
  exact allLookups_chainOperands op e

theorem lookups_chainOf (op : Associative) (operands : List (Expr ν (some .number))) :
    (evaluate ctx (chainOf op operands)).lookups = allLookups ctx operands := by
  rw [← allLookups_flatMap_chainOperands op, ← allLookups_filter]
  unfold chainOf
  generalize operands.flatMap (chainOperands op) = joined
  dsimp only
  split
  · rename_i noRest
    rw [List.isEmpty_iff.mp noRest, evaluate]
    rfl
  · split
    · rw [evaluate_chain]
    · rw [evaluate_chain]
      simp only [allLookups, List.flatMap_append, List.flatMap_cons, List.flatMap_nil, evaluate,
        Traced.lookups_pure, List.append_nil]

/-- With nothing but the identity to follow, a result stays as it is. -/
theorem bind_identity (op : Logical) (result : Traced Bool) :
    (result.bind fun b => if b = op.absorbing then .pure op.absorbing else .pure op.identity) =
      result := by
  by_cases decides : result.value = op.absorbing
  · simp only [Traced.bind, Traced.pure, decides, if_true, List.append_nil]
    rw [← decides]
  · have identity : result.value = op.identity := by
      rw [Logical.absorbing, Bool.eq_not] at decides
      exact Decidable.not_not.mp decides
    simp only [Traced.bind, Traced.pure, decides, if_false, List.append_nil]
    rw [← identity]

theorem evaluateLogic_singleton (op : Logical) (e : Expr ν (some .boolean)) :
    evaluateLogic ctx op [e] = evaluate ctx e := by
  rw [evaluateLogic, evaluateLogic]
  exact bind_identity op (evaluate ctx e)

theorem evaluateLogic_append_identity (op : Logical) (operands : List (Expr ν (some .boolean))) :
    evaluateLogic ctx op (operands ++ [.boolean op.identity]) = evaluateLogic ctx op operands := by
  rw [evaluateLogic_append, evaluateLogic_singleton, evaluate]
  exact bind_identity op (evaluateLogic ctx op operands)

theorem evaluateLogic_logicOperands (op : Logical) (e : Expr ν (some .boolean)) :
    evaluateLogic ctx op (logicOperands op e) = evaluate ctx e := by
  unfold logicOperands
  split
  · rename_i inner operands
    by_cases same : inner = op
    · rw [if_pos same, evaluate, same]
    · rw [if_neg same, evaluateLogic_singleton]
  · exact evaluateLogic_singleton op _

/-- Joining logical operators inside their like changes neither the result nor the lookups. -/
theorem evaluateLogic_flatMap_logicOperands (op : Logical)
    (operands : List (Expr ν (some .boolean))) :
    evaluateLogic ctx op (operands.flatMap (logicOperands op)) =
      evaluateLogic ctx op operands := by
  induction operands with
  | nil => rfl
  | cons first rest ih =>
      rw [List.flatMap_cons, evaluateLogic_append, evaluateLogic_logicOperands, ih, evaluateLogic]

/-- A literal that decides the result does so from wherever it stands. -/
theorem evaluateLogic_value_of_absorbing {op : Logical} {operands : List (Expr ν (some .boolean))}
    (decides : .boolean op.absorbing ∈ operands) :
    (evaluateLogic ctx op operands).value = op.absorbing := by
  obtain ⟨before, after, rfl⟩ := List.append_of_mem decides
  rw [evaluateLogic_append, Traced.value_bind]
  split
  · rfl
  · rw [evaluateLogic, Traced.value_bind, evaluate, Traced.value_pure, if_pos rfl]
    rfl

/-- Literals that do not decide the result can be left out. -/
theorem evaluateLogic_filter {op : Logical} {operands : List (Expr ν (some .boolean))}
    (undecided : .boolean op.absorbing ∉ operands) :
    evaluateLogic ctx op (operands.filter fun e => e.boolean?.isNone) =
      evaluateLogic ctx op operands := by
  induction operands with
  | nil => rfl
  | cons first rest ih =>
      rw [List.mem_cons, not_or] at undecided
      have further := ih undecided.2
      cases known : first.boolean? with
      | none =>
          rw [List.filter_cons_of_pos (by rw [known]; rfl), evaluateLogic, further,
            evaluateLogic]
      | some b =>
          have literal := eq_boolean_of_boolean? known
          have keeps : b ≠ op.absorbing := fun same => undecided.1 (by rw [literal, same])
          rw [List.filter_cons_of_neg (by rw [known]; exact Bool.false_ne_true), further, literal,
            evaluateLogic, evaluate]
          simp only [Traced.bind, Traced.pure, keeps, if_false, List.nil_append]

end PathExpr.Expr
