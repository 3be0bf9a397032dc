import PathExpr.Proofs.Double.Neutral
import PathExpr.Proofs.Folding.Normal
import PathExpr.Proofs.Folding.Rounding

set_option autoImplicit false

namespace PathExpr.Expr

variable {ν : Type}

def decided (op : Logical) (operands : List (Expr ν (some .boolean))) : Bool :=
  operands.any fun e => e.boolean? == some op.absorbing

def openBooleans (operands : List (Expr ν (some .boolean))) : List (Expr ν (some .boolean)) :=
  operands.filter fun e => e.boolean?.isNone

/-- A logical operator on operands that are joined already. -/
def logicOfJoined (op : Logical) (joined : List (Expr ν (some .boolean))) :
    Expr ν (some .boolean) :=
  if decided op joined then .boolean op.absorbing
  else if (openBooleans joined).isEmpty then .boolean op.identity
  else .logic op (openBooleans joined)

/-- A folded node depends on its operands only through what they contribute when they are joined. -/
theorem logicOf_eq_ofJoined (op : Logical) (operands : List (Expr ν (some .boolean))) :
    logicOf op operands = logicOfJoined op (operands.flatMap (logicOperands op)) := rfl

theorem decided_append (op : Logical) (first second : List (Expr ν (some .boolean))) :
    decided op (first ++ second) = (decided op first || decided op second) := List.any_append

theorem openBooleans_append (first second : List (Expr ν (some .boolean))) :
    openBooleans (first ++ second) = openBooleans first ++ openBooleans second :=
  List.filter_append first second

theorem decided_openBooleans (op : Logical) (operands : List (Expr ν (some .boolean))) :
    decided op (openBooleans operands) = false := by
  unfold decided openBooleans
  rw [List.any_eq_false]
  intro e isOpen
  rw [Option.isNone_iff_eq_none.1 (List.mem_filter.1 isOpen).2]
  exact Bool.false_ne_true

theorem openBooleans_openBooleans (operands : List (Expr ν (some .boolean))) :
    openBooleans (openBooleans operands) = openBooleans operands := by
  unfold openBooleans
  rw [List.filter_filter]
  simp only [Bool.and_self]

/-- What a folded operator contributes to its like decides if one of its operands does; otherwise
the operands that are open are the same. -/
theorem logicOperands_logicOfJoined (op : Logical) (inner : List (Expr ν (some .boolean))) :
    decided op (logicOperands op (logicOfJoined op inner)) = decided op inner ∧
      (decided op inner = false →
        openBooleans (logicOperands op (logicOfJoined op inner)) = openBooleans inner) := by
  unfold logicOfJoined
  cases decision : decided op inner with
  | true =>
      -- the inner operator is its absorbing literal, which decides the outer one in turn
      have decisive : decided op [(.boolean op.absorbing : Expr ν _)] = true := by
        show (some op.absorbing == some op.absorbing || false) = true
        rw [beq_self_eq_true]
        rfl
      exact ⟨decisive, fun undecided => Bool.noConfusion undecided⟩
  | false =>
      rw [if_neg Bool.false_ne_true]
      split
      · -- the identity neither decides nor stays open, as the literals it stands for
        rename_i noneOpen
        have undecided : decided op [(.boolean op.identity : Expr ν _)] = false := by
          cases op <;> rfl
        refine ⟨undecided, fun _ => ?_⟩
        rw [List.isEmpty_iff.1 noneOpen]
        rfl
      · have own : logicOperands op (.logic op (openBooleans inner)) = openBooleans inner :=
          if_pos rfl
        rw [own]
        exact ⟨decided_openBooleans op inner, fun _ => openBooleans_openBooleans inner⟩

/-- Operands that decide alike, and are open alike unless they decide, can be exchanged. -/
theorem logicOfJoined_exchange {op : Logical} {inner inner' : List (Expr ν (some .boolean))}
    (sameDecision : decided op inner' = decided op inner)
    (sameOpen : decided op inner = false → openBooleans inner' = openBooleans inner)
    (before after : List (Expr ν (some .boolean))) :
    logicOfJoined op (before ++ inner' ++ after) = logicOfJoined op (before ++ inner ++ after) := by
  unfold logicOfJoined
  simp only [decided_append, openBooleans_append, sameDecision]
  cases decision : decided op inner with
  | true => simp only [Bool.or_true, Bool.true_or, if_true]
  | false => rw [sameOpen decision]

/-- A logical operator inside its like can be left out, its operands in its place. -/
theorem normalize_logic_nested [Arithmetic ν] (op : Logical)
    (xs ys zs : List (Expr ν (some .boolean))) :
    normalize (.logic op (xs ++ [.logic op ys] ++ zs)) =
      normalize (.logic op (xs ++ ys ++ zs)) := by
  obtain ⟨sameDecision, sameOpen⟩ :=
    logicOperands_logicOfJoined op ((ys.map normalize).flatMap (logicOperands op))
  simp only [normalize_logic, logicOf_eq_ofJoined, List.map_append, List.map_singleton,
    List.flatMap_append, List.flatMap_singleton]
  exact logicOfJoined_exchange sameDecision sameOpen _ _

def literals (operands : List (Expr ν (some .number))) : List ν := operands.filterMap number?

def openNumbers (operands : List (Expr ν (some .number))) : List (Expr ν (some .number)) :=
  operands.filter fun e => e.number?.isNone

def chainOfJoined [Arithmetic ν] (op : Associative) (joined : List (Expr ν (some .number))) :
    Expr ν (some .number) :=
  let literal := (literals joined).foldl op.apply op.identity
  if (openNumbers joined).isEmpty then .number literal
  else if op.isIdentity literal then .chain op (openNumbers joined)
  else .chain op (openNumbers joined ++ [.number literal])

theorem chainOf_eq_ofJoined [Arithmetic ν] (op : Associative)
    (operands : List (Expr ν (some .number))) :
    chainOf op operands = chainOfJoined op (operands.flatMap (chainOperands op)) := rfl

/-- Neither a literal nor a chain of the operator with a literal among its operands. -/
def BringsNoLiteral (op : Associative) (e : Expr ν (some .number)) : Prop :=
  e.number? = none ∧ ∀ operands, e = .chain op operands → ∀ o ∈ operands, o.number? = none

theorem BringsNoLiteral.number?_eq_none {op : Associative} {e : Expr ν (some .number)}
    (noLiteral : BringsNoLiteral op e) : ∀ o ∈ chainOperands op e, o.number? = none := by
  have alone : ∀ o ∈ [e], o.number? = none := List.forall_mem_singleton.2 noLiteral.1
  unfold chainOperands
  split
  · rename_i inner operands
    split
    · rename_i same
      exact noLiteral.2 operands (by rw [same])
    · exact alone
  · exact alone

theorem apply_identity_result (op : Associative) (xs : List Float) :
    op.apply (xs.foldl op.apply op.identity) op.identity = xs.foldl op.apply op.identity := by
  cases op with
  | sum => exact Double.add_zero_eq (Double.sum_ne_negativeZero xs Double.identity_ne_negativeZero)
  | product => exact Double.mul_one_eq _

theorem chainOfJoined_identity (op : Associative)
    (before after : List (Expr Float (some .number))) :
    chainOfJoined op (before ++ [.number op.identity] ++ after) =
      chainOfJoined op (before ++ after) := by
  have sameOpen : openNumbers (before ++ [.number op.identity] ++ after) =
      openNumbers (before ++ after) := by
    have isLiteral : openNumbers [(.number op.identity : Expr Float _)] = [] := rfl
    unfold openNumbers at isLiteral ⊢
    rw [List.filter_append, List.filter_append, List.filter_append, isLiteral, List.append_nil]
  have sameLiteral : (literals (before ++ [.number op.identity] ++ after)).foldl op.apply
      op.identity = (literals (before ++ after)).foldl op.apply op.identity := by
    have isLiteral : literals [(.number op.identity : Expr Float _)] = [op.identity] := rfl
    unfold literals at isLiteral ⊢
    rw [List.filterMap_append, List.filterMap_append, List.filterMap_append, isLiteral,
      List.foldl_append, List.foldl_append, List.foldl_append, List.foldl_cons, List.foldl_nil,
      apply_identity_result]
  unfold chainOfJoined
  rw [sameOpen, sameLiteral]

/-- What a folded chain contributes to its like are its operands, or the identity if there are
none. -/
theorem chainOperands_chainOfJoined {op : Associative} {inner : List (Expr Float (some .number))}
    (noLiterals : ∀ e ∈ inner, e.number? = none) :
    chainOperands op (chainOfJoined op inner) =
      if inner.isEmpty then [.number op.identity] else inner := by
  have noLiteral : literals inner = [] := List.filterMap_eq_nil_iff.2 noLiterals
  have allOpen : openNumbers inner = inner :=
    List.filter_eq_self.2 fun e isIn => Option.isNone_iff_eq_none.2 (noLiterals e isIn)
  unfold chainOfJoined
  dsimp only
  rw [noLiteral, allOpen, List.foldl_nil, isIdentity_identity, if_pos rfl]
  split
  · rfl
  · exact if_pos rfl

/-- A chain inside its like can be left out, its operands in its place, if no literal comes with
them. -/
theorem normalize_chain_nested {op : Associative} {ys : List (Expr Float (some .number))}
    (noLiterals : ∀ y ∈ ys, BringsNoLiteral op y.normalize)
    (xs zs : List (Expr Float (some .number))) :
    normalize (.chain op (xs ++ [.chain op ys] ++ zs)) =
      normalize (.chain op (xs ++ ys ++ zs)) := by
  have contributed : ∀ e ∈ (ys.map normalize).flatMap (chainOperands op), e.number? = none := by
    rw [List.forall_mem_flatMap, List.forall_mem_map]
    exact fun y isIn => (noLiterals y isIn).number?_eq_none
  simp only [normalize_chain, chainOf_eq_ofJoined, List.map_append, List.map_singleton,
    List.flatMap_append, List.flatMap_singleton]
  rw [chainOperands_chainOfJoined contributed]
  generalize (ys.map normalize).flatMap (chainOperands op) = inner
  split
  · -- an empty chain is the identity, a literal that was not there before
    rename_i nothing
    rw [List.isEmpty_iff.1 nothing, chainOfJoined_identity, List.append_nil]
  · rfl

/-- What a tree is folded to does not depend on how operators of one kind were nested: the operands
of an inner one may as well stand in its place. For sums and products these must bring no literals
with them, as rounding depends on the order in which literals are put together. -/
theorem normalize_nested :
    (∀ (op : Logical) (xs ys zs : List (Expr Float (some .boolean))),
      normalize (.logic op (xs ++ [.logic op ys] ++ zs)) =
        normalize (.logic op (xs ++ ys ++ zs))) ∧
    ∀ (op : Associative) (xs ys zs : List (Expr Float (some .number))),
      (∀ y ∈ ys, BringsNoLiteral op y.normalize) →
        normalize (.chain op (xs ++ [.chain op ys] ++ zs)) =
          normalize (.chain op (xs ++ ys ++ zs)) :=
  ⟨fun op xs ys zs => normalize_logic_nested op xs ys zs,
    fun _ xs _ zs noLiterals => normalize_chain_nested noLiterals xs zs⟩

/-- A sum of a path, another sum and a product with a literal, between two literals. -/
theorem normalize_nested_paths :
    let a : Path := ⟨[.field "a"]⟩
    let b : Path := ⟨[.field "b"]⟩
    let inner : List (Expr Float (some .number)) :=
      [.path a, .chain .sum [.path b], .chain .product [.path b, .number 2]]
    (∀ y ∈ inner, BringsNoLiteral .sum y.normalize) ∧
      normalize (.chain .sum ([.number 0.1] ++ [.chain .sum inner] ++ [.number 0.2])) =
        normalize (.chain .sum ([.number 0.1] ++ inner ++ [.number 0.2])) := by
  intro a b inner
  have stays (op : Associative) : ∀ e ∈ [(.path b : Expr Float _)], StaysInChain op e :=
    List.forall_mem_singleton.2 ⟨rfl, fun _ isChain => by cases isChain⟩
  have ofSum : BringsNoLiteral .sum (normalize (.chain .sum [.path b] : Expr Float _)) := by
    rw [normalize_chain, List.map_singleton, normalize,
      chainOf_eq (.noLiteral (List.cons_ne_nil _ _) (stays .sum))]
    refine ⟨rfl, fun operands isSum => ?_⟩
    cases isSum
    exact List.forall_mem_singleton.2 rfl
  have ofProduct :
      BringsNoLiteral .sum (normalize (.chain .product [.path b, .number 2] : Expr Float _)) := by
    have folded : chainOf .product [.path b, (.number 2 : Expr Float _)] =
        .chain .product [.path b, .number 2] :=
      chainOf_eq (.literal (List.cons_ne_nil _ _) (stays .product) (by decide +kernel))
    rw [normalize_chain, List.map_cons, List.map_singleton, normalize, normalize, folded]
    exact ⟨rfl, fun _ isSum => by cases isSum⟩
  have ofPath : BringsNoLiteral .sum (normalize (.path a : Expr Float _)) :=
    ⟨rfl, fun _ isSum => by cases isSum⟩
  have noLiterals : ∀ y ∈ inner, BringsNoLiteral .sum y.normalize :=
    List.forall_mem_cons.2 ⟨ofPath, List.forall_mem_cons.2 ⟨ofSum,
      List.forall_mem_singleton.2 ofProduct⟩⟩
  exact ⟨noLiterals, normalize_nested.2 .sum _ inner _ noLiterals⟩

end PathExpr.Expr
