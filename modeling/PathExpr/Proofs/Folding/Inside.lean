import PathExpr.Expr.Normalize
import PathExpr.Proofs.Induction

set_option autoImplicit false

namespace PathExpr.Expr

variable {ν : Type}

@[elab_as_elim]
theorem binaryOf_cases {k : Kind} {motive : Expr ν (some k) → Prop}
    {node : Expr ν (some .number) → Expr ν (some .number) → Expr ν (some k)}
    {result : ν → ν → Expr ν (some k)} {l r : Expr ν (some .number)}
    (isLiteral : ∀ a b, motive (result a b))
    (isNode : l.number? = none ∨ r.number? = none → motive (node l r)) :
    motive (binaryOf node result l r) := by
  unfold binaryOf
  cases left : l.number? with
  | none => exact isNode (.inl left)
  | some a =>
      cases right : r.number? with
      | none => exact isNode (.inr right)
      | some b => exact isLiteral a b

@[elab_as_elim]
theorem chainOf_cases [Arithmetic ν] {op : Associative} {motive : Expr ν (some .number) → Prop}
    {operands : List (Expr ν (some .number))} (isLiteral : ∀ x, motive (.number x))
    (isChain : ∀ rest, rest ≠ [] →
      (∀ x ∈ rest, x.number? = none ∧ ∃ e ∈ operands, x ∈ chainOperands op e) →
      motive (.chain op rest) ∧
        ∀ x, op.isIdentity x = false → motive (.chain op (rest ++ [.number x]))) :
    motive (chainOf op operands) := by
  have members : ∀ x ∈ (operands.flatMap (chainOperands op)).filter (fun e => e.number?.isNone),
      x.number? = none ∧ ∃ e ∈ operands, x ∈ chainOperands op e := by
    intro x inRest
    obtain ⟨inJoined, isOpen⟩ := List.mem_filter.1 inRest
    exact ⟨Option.isNone_iff_eq_none.1 isOpen, List.mem_flatMap.1 inJoined⟩
  unfold chainOf
  generalize operands.flatMap (chainOperands op) = joined at members
  dsimp only
  split
  · exact isLiteral _
  · rename_i someRest
    rw [List.isEmpty_iff] at someRest
    obtain ⟨alone, withLiteral⟩ := isChain _ someRest members
    split
    · exact alone
    · rename_i changes
      exact withLiteral _ (eq_false_of_ne_true changes)

@[elab_as_elim]
theorem logicOf_cases {op : Logical} {motive : Expr ν (some .boolean) → Prop}
    {operands : List (Expr ν (some .boolean))} (isLiteral : ∀ b, motive (.boolean b))
    (isLogic : ∀ rest, rest ≠ [] →
      (∀ x ∈ rest, x.boolean? = none ∧ ∃ e ∈ operands, x ∈ logicOperands op e) →
      motive (.logic op rest)) :
    motive (logicOf op operands) := by
  have members : ∀ x ∈ (operands.flatMap (logicOperands op)).filter (fun e => e.boolean?.isNone),
      x.boolean? = none ∧ ∃ e ∈ operands, x ∈ logicOperands op e := by
    intro x inRest
    obtain ⟨inJoined, isOpen⟩ := List.mem_filter.1 inRest
    exact ⟨Option.isNone_iff_eq_none.1 isOpen, List.mem_flatMap.1 inJoined⟩
  unfold logicOf
  generalize operands.flatMap (logicOperands op) = joined at members
  dsimp only
  split
  · exact isLiteral _
  · split
    · exact isLiteral _
    · rename_i someRest
      rw [List.isEmpty_iff] at someRest
      exact isLogic _ someRest members

variable {P : ∀ {k : Option Kind}, Expr ν k → Prop}

theorem everywhere_of_mem_chainOperands {op : Associative} {e x : Expr ν (some .number)}
    (everywhere : Everywhere P e) (contributes : x ∈ chainOperands op e) : Everywhere P x := by
  unfold chainOperands at contributes
  split at contributes
  · split at contributes
    · exact (everywhere_chain.1 everywhere).2 x contributes
    · rw [List.mem_singleton.1 contributes]
      exact everywhere
  · rw [List.mem_singleton.1 contributes]
    exact everywhere

theorem everywhere_of_mem_logicOperands {op : Logical} {e x : Expr ν (some .boolean)}
    (everywhere : Everywhere P e) (contributes : x ∈ logicOperands op e) : Everywhere P x := by
  unfold logicOperands at contributes
  split at contributes
  · split at contributes
    · exact (everywhere_logic.1 everywhere).2 x contributes
    · rw [List.mem_singleton.1 contributes]
      exact everywhere
  · rw [List.mem_singleton.1 contributes]
    exact everywhere

theorem everywhere_notOf {e : Expr ν (some .boolean)} (inner : Everywhere P e)
    (here : P (notOf e)) : Everywhere P (notOf e) := by
  revert here
  unfold notOf
  split
  · exact everywhere_of_leaf rfl
  · exact fun isNode => everywhere_not.2 ⟨isNode, inner⟩

theorem everywhere_logicOf {op : Logical} {operands : List (Expr ν (some .boolean))}
    (each : ∀ e ∈ operands, Everywhere P e) (here : P (logicOf op operands)) :
    Everywhere P (logicOf op operands) := by
  refine logicOf_cases (motive := fun e => P e → Everywhere P e)
    (fun b => everywhere_of_leaf rfl) (fun rest _ members isLogic => ?_) here
  refine everywhere_logic.2 ⟨isLogic, fun x inRest => ?_⟩
  obtain ⟨-, e, isOperand, contributes⟩ := members x inRest
  exact everywhere_of_mem_logicOperands (each e isOperand) contributes

variable [Arithmetic ν]

theorem everywhere_negateOf {e : Expr ν (some .number)} (inner : Everywhere P e)
    (here : P (negateOf e)) : Everywhere P (negateOf e) := by
  revert here
  unfold negateOf
  split
  · exact everywhere_of_leaf rfl
  · exact fun isNode => everywhere_negate.2 ⟨isNode, inner⟩

theorem everywhere_equalOf {l r : Expr ν none} (left : Everywhere P l) (right : Everywhere P r)
    (here : P (equalOf l r)) : Everywhere P (equalOf l r) := by
  revert here
  unfold equalOf
  split
  · exact everywhere_of_leaf rfl
  · exact fun isNode => everywhere_equal.2 ⟨isNode, left, right⟩

theorem everywhere_chainOf {op : Associative} {operands : List (Expr ν (some .number))}
    (literal : ∀ x, P (.number x)) (each : ∀ e ∈ operands, Everywhere P e)
    (here : P (chainOf op operands)) : Everywhere P (chainOf op operands) := by
  refine chainOf_cases (motive := fun e => P e → Everywhere P e)
    (fun x => everywhere_of_leaf rfl) (fun rest _ members => ?_) here
  have inner : ∀ x ∈ rest, Everywhere P x := by
    intro x inRest
    obtain ⟨-, e, isOperand, contributes⟩ := members x inRest
    exact everywhere_of_mem_chainOperands (each e isOperand) contributes
  have last : ∀ x, ∀ e ∈ [.number x], Everywhere P e := fun x =>
    List.forall_mem_singleton.2 (everywhere_of_leaf rfl (literal x))
  exact ⟨fun isChain => everywhere_chain.2 ⟨isChain, inner⟩, fun x _ isChain =>
    everywhere_chain.2 ⟨isChain, List.forall_mem_append.2 ⟨inner, last x⟩⟩⟩

/-- What holds of literals and of what the trees inside a tree are normalized to holds everywhere in
the normalized tree. -/
theorem everywhere_normalize {k : Option Kind} {e : Expr ν k} (literal : ∀ x, P (.number x))
    (each : Everywhere (fun d => P d.normalize) e) : Everywhere P e.normalize := by
  have here : P e.normalize := each.self
  induction e using induct with
  | path p => exact everywhere_of_leaf rfl here
  | number x => exact everywhere_of_leaf rfl here
  | boolean b => exact everywhere_of_leaf rfl here
  | string s => exact everywhere_of_leaf rfl here
  | withDefault p d ih =>
      have inner := (everywhere_withDefault.1 each).2
      exact everywhere_withDefault.2 ⟨here, ih inner inner.self⟩
  | typed e ih =>
      have inner := (everywhere_typed.1 each).2
      exact everywhere_typed.2 ⟨here, ih inner inner.self⟩
  | negate e ih =>
      have inner := (everywhere_negate.1 each).2
      exact everywhere_negateOf (ih inner inner.self) here
  | chain op operands ih =>
      have inner := (everywhere_chain.1 each).2
      rw [normalize_chain] at here ⊢
      refine everywhere_chainOf literal (List.forall_mem_map.2 fun e isOperand => ?_) here
      exact ih e isOperand (inner e isOperand) (inner e isOperand).self
  | subtract l r ihLeft ihRight =>
      obtain ⟨-, left, right⟩ := everywhere_subtract.1 each
      refine binaryOf_cases (motive := fun e => P e → Everywhere P e)
        (fun _ _ => everywhere_of_leaf rfl) (fun _ isNode => ?_) here
      exact everywhere_subtract.2 ⟨isNode, ihLeft left left.self, ihRight right right.self⟩
  | divide l r ihLeft ihRight =>
      obtain ⟨-, left, right⟩ := everywhere_divide.1 each
      refine binaryOf_cases (motive := fun e => P e → Everywhere P e)
        (fun _ _ => everywhere_of_leaf rfl) (fun _ isNode => ?_) here
      exact everywhere_divide.2 ⟨isNode, ihLeft left left.self, ihRight right right.self⟩
  | length a ih =>
      have inner := (everywhere_length.1 each).2
      exact everywhere_length.2 ⟨here, ih inner inner.self⟩
  | not e ih =>
      have inner := (everywhere_not.1 each).2
      exact everywhere_notOf (ih inner inner.self) here
  | compare op l r ihLeft ihRight =>
      obtain ⟨-, left, right⟩ := everywhere_compare.1 each
      refine binaryOf_cases (motive := fun e => P e → Everywhere P e)
        (fun _ _ => everywhere_of_leaf rfl) (fun _ isNode => ?_) here
      exact everywhere_compare.2 ⟨isNode, ihLeft left left.self, ihRight right right.self⟩
  | equal l r ihLeft ihRight =>
      obtain ⟨-, left, right⟩ := everywhere_equal.1 each
      exact everywhere_equalOf (ihLeft left left.self) (ihRight right right.self) here
  | logic op operands ih =>
      have inner := (everywhere_logic.1 each).2
      rw [normalize_logic] at here ⊢
      refine everywhere_logicOf (List.forall_mem_map.2 fun e isOperand => ?_) here
      exact ih e isOperand (inner e isOperand) (inner e isOperand).self

end PathExpr.Expr
