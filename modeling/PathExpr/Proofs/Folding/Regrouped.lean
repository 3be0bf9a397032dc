import PathExpr.Proofs.Folding.Refines

set_option autoImplicit false

namespace PathExpr

/-- The numbers of a chain: those that depend on nothing, and the others. Regrouping is said of the
numbers themselves here, for any arithmetic and without reference to folded trees. -/
structure Parts (ν : Type) where
  constants : List ν
  others : List ν
deriving Repr, DecidableEq

namespace Parts

variable {ν : Type}

def none : Parts ν := ⟨[], []⟩

def append (first second : Parts ν) : Parts ν :=
  ⟨first.constants ++ second.constants, first.others ++ second.others⟩

variable [Arithmetic ν]

def constant (op : Associative) (parts : Parts ν) : ν :=
  parts.constants.foldl op.apply op.identity

/-- One constant in place of all, or no constant if it changes nothing. -/
def merged (op : Associative) (parts : Parts ν) : Parts ν :=
  ⟨if op.isIdentity (parts.constant op) then [] else [parts.constant op], parts.others⟩

/-- The result if the other numbers come first and what the constants make comes last. -/
def total (op : Associative) (parts : Parts ν) : ν :=
  if parts.others.isEmpty then parts.constant op
  else (parts.others ++ (parts.merged op).constants).foldl op.apply op.identity

/-- A number is a constant if no lookup was made for it. -/
def single (t : Traced ν) : Parts ν :=
  if t.lookups.isEmpty then ⟨[t.value], []⟩ else ⟨[], [t.value]⟩

/-- A result of another kind is no part of a chain. -/
def ofResult : (k : Option Kind) → Traced (Result ν k) → Parts ν
  | some .number, t => single t
  | _, _ => none

end Parts

namespace Expr

variable {ν : Type}

theorem number?_binaryOf_eq_none_iff
    {node : Expr ν (some .number) → Expr ν (some .number) → Expr ν (some .number)}
    {result : ν → ν → ν} (isNode : ∀ l r, (node l r).number? = none)
    (l r : Expr ν (some .number)) :
    (binaryOf node (fun a b => .number (result a b)) l r).number? = none ↔
      l.number? = none ∨ r.number? = none := by
  unfold binaryOf
  cases left : l.number? with
  | none => exact ⟨fun _ => .inl rfl, fun _ => isNode l r⟩
  | some a =>
      cases right : r.number? with
      | none => exact ⟨fun _ => .inr rfl, fun _ => isNode l r⟩
      | some b => simp only [number?, reduceCtorEq, or_self]

variable [Arithmetic ν] {ctx : Context ν}

theorem number?_negateOf_eq_none_iff (e : Expr ν (some .number)) :
    (negateOf e).number? = none ↔ e.number? = none := by
  cases e with
  | number x => simp only [negateOf, number?, reduceCtorEq]
  | _ => exact ⟨fun _ => rfl, fun _ => rfl⟩

mutual

/-- The parts that an operand contributes to a chain. A chain of the same operator contributes its
own, with its constants already put together. -/
def parts (ctx : Context ν) (op : Associative) {k : Option Kind} : Expr ν k → Parts ν
  | .chain inner operands =>
      let whole := evaluateChain ctx inner inner.identity operands
      if inner = op ∧ ¬whole.lookups.isEmpty then (operandParts ctx op operands).merged op
      else .single whole
  | e => .ofResult k (evaluate ctx e)

def operandParts (ctx : Context ν) (op : Associative) : List (Expr ν (some .number)) → Parts ν
  | [] => .none
  | e :: rest => (e.parts ctx op).append (operandParts ctx op rest)

end

theorem parts_of_ne_chain {op : Associative} {e : Expr ν (some .number)}
    (notChain : ∀ inner operands, e ≠ .chain inner operands) :
    e.parts ctx op = .single (evaluate ctx e) := by
  cases e with
  | chain inner operands => exact absurd rfl (notChain inner operands)
  | _ => rfl

/-- Only chains are folded to chains, and these are of the same operator. -/
theorem eq_chain_of_normalize {op : Associative} {e : Expr ν (some .number)}
    {operands : List (Expr ν (some .number))} (folded : e.normalize = .chain op operands) :
    ∃ unfolded, e = .chain op unfolded := by
  cases e with
  | chain op' operands' =>
      rw [normalize] at folded
      unfold chainOf at folded
      dsimp only at folded
      split at folded
      · cases folded
      · split at folded <;> cases folded <;> exact ⟨operands', rfl⟩
  | path p => cases folded
  | withDefault p d => cases folded
  | number x => cases folded
  | negate e =>
      rw [normalize] at folded
      unfold negateOf at folded
      split at folded <;> cases folded
  | subtract l r =>
      rw [normalize] at folded
      unfold subtractOf binaryOf at folded
      split at folded <;> cases folded
  | divide l r =>
      rw [normalize] at folded
      unfold divideOf binaryOf at folded
      split at folded <;> cases folded
  | length a => cases folded

theorem chainOperands_normalize {op : Associative} {e : Expr ν (some .number)}
    (notChain : ∀ operands, e ≠ .chain op operands) :
    chainOperands op e.normalize = [e.normalize] := by
  generalize folded : e.normalize = n
  unfold chainOperands
  split
  · rename_i inner operands
    by_cases same : inner = op
    · obtain ⟨unfolded, isChain⟩ := eq_chain_of_normalize folded
      rw [same] at isChain
      exact absurd isChain (notChain unfolded)
    · rw [if_neg same]
  · rfl

/-- A folded chain keeps an operand that is no literal. -/
theorem exists_open_of_chain {op : Associative} {e : Expr ν (some .number)}
    {operands : List (Expr ν (some .number))} (folded : e.normalize = .chain op operands) :
    ∃ x ∈ operands, x.number? = none := by
  obtain ⟨unfolded, rfl⟩ := eq_chain_of_normalize folded
  rw [normalize_chain] at folded
  unfold chainOf at folded
  generalize (unfolded.map normalize).flatMap (chainOperands op) = joined at folded
  dsimp only at folded
  split at folded
  · cases folded
  · rename_i someRest
    rw [List.isEmpty_iff] at someRest
    obtain ⟨x, isRest⟩ := List.exists_mem_of_ne_nil _ someRest
    refine ⟨x, ?_, Option.isNone_iff_eq_none.1 (List.mem_filter.1 isRest).2⟩
    split at folded
    · cases folded
      exact isRest
    · cases folded
      exact List.mem_append_left _ isRest

theorem exists_open_chainOperands (op : Associative) (e : Expr ν (some .number)) :
    (∃ x ∈ chainOperands op e.normalize, x.number? = none) ↔ e.normalize.number? = none := by
  have alone : (∃ x ∈ [e.normalize], x.number? = none) ↔ e.normalize.number? = none := by
    simp only [List.mem_singleton, exists_eq_left]
  generalize folded : e.normalize = n at alone ⊢
  unfold chainOperands
  split
  · rename_i inner operands
    by_cases same : inner = op
    · rw [if_pos same]
      exact ⟨fun _ => rfl, fun _ => exists_open_of_chain folded⟩
    · rw [if_neg same]
      exact alone
  · exact alone

theorem number?_chainOf_eq_none_iff {op : Associative} {operands : List (Expr ν (some .number))} :
    (chainOf op operands).number? = none ↔
      ∃ x ∈ operands.flatMap (chainOperands op), x.number? = none := by
  unfold chainOf
  generalize operands.flatMap (chainOperands op) = joined
  dsimp only
  split
  · rename_i noRest
    rw [List.isEmpty_iff, List.filter_eq_nil_iff] at noRest
    constructor
    · intro isLiteral
      cases isLiteral
    · intro isOpen
      obtain ⟨x, inJoined, noLiteral⟩ := isOpen
      exact absurd (Option.isNone_iff_eq_none.2 noLiteral) (noRest x inJoined)
  · rename_i someRest
    rw [List.isEmpty_iff] at someRest
    obtain ⟨x, isRest⟩ := List.exists_mem_of_ne_nil _ someRest
    have isOpen := List.mem_filter.1 isRest
    have found : ∃ x ∈ joined, x.number? = none :=
      ⟨x, isOpen.1, Option.isNone_iff_eq_none.1 isOpen.2⟩
    split <;> exact ⟨fun _ => found, fun _ => rfl⟩

theorem lookups_array_ne (a : Expr ν (some .array)) : (evaluate ctx a).lookups ≠ [] := by
  cases a with
  | path p =>
      rw [evaluate]
      exact List.cons_ne_nil _ _
  | withDefault p d =>
      rw [evaluate]
      exact List.cons_ne_nil _ _

/-- A number is folded to a literal unless a lookup is made for it, in whatever context. -/
theorem number?_normalize_eq_none_iff (ctx : Context ν) (e : Expr ν (some .number)) :
    e.normalize.number? = none ↔ (evaluate ctx e).lookups ≠ [] := by
  induction e using inductNumber with
  | path p =>
      rw [normalize, evaluate]
      exact ⟨fun _ => List.cons_ne_nil _ _, fun _ => rfl⟩
  | withDefault p d ih =>
      rw [normalize, evaluate]
      exact ⟨fun _ => List.cons_ne_nil _ _, fun _ => rfl⟩
  | number x =>
      rw [normalize, evaluate]
      simp only [number?, reduceCtorEq, Traced.lookups_pure, ne_eq, not_true_eq_false]
  | negate e ih =>
      rw [normalize, number?_negateOf_eq_none_iff, ih, evaluate, Traced.lookups_map]
  | chain op operands ih =>
      rw [normalize_chain, number?_chainOf_eq_none_iff, evaluate_chain]
      constructor
      · intro someOpen noLookups
        obtain ⟨x, inJoined, isOpen⟩ := someOpen
        obtain ⟨n, isNormal, contributes⟩ := List.mem_flatMap.1 inJoined
        obtain ⟨o, isOperand, rfl⟩ := List.mem_map.1 isNormal
        have open' := (exists_open_chainOperands op o).1 ⟨x, contributes, isOpen⟩
        exact (ih o isOperand).1 open' (List.flatMap_eq_nil_iff.1 noLookups o isOperand)
      · intro someLookups
        obtain ⟨lookup, isMade⟩ := List.exists_mem_of_ne_nil _ someLookups
        obtain ⟨o, isOperand, isMadeHere⟩ := List.mem_flatMap.1 isMade
        have open' := (ih o isOperand).2 (List.ne_nil_of_mem isMadeHere)
        obtain ⟨x, contributes, isOpen⟩ := (exists_open_chainOperands op o).2 open'
        exact ⟨x, List.mem_flatMap.2 ⟨_, List.mem_map_of_mem isOperand, contributes⟩, isOpen⟩
  | subtract l r ihLeft ihRight =>
      rw [normalize, subtractOf, number?_binaryOf_eq_none_iff (fun _ _ => rfl), ihLeft, ihRight,
        evaluate, Traced.lookups_bind, Traced.lookups_map]
      simp only [ne_eq, List.append_eq_nil_iff, Classical.not_and_iff_not_or_not]
  | divide l r ihLeft ihRight =>
      rw [normalize, divideOf, number?_binaryOf_eq_none_iff (fun _ _ => rfl), ihLeft, ihRight,
        evaluate, Traced.lookups_bind, Traced.lookups_map]
      simp only [ne_eq, List.append_eq_nil_iff, Classical.not_and_iff_not_or_not]
  | length a =>
      rw [normalize, evaluate, Traced.lookups_map]
      exact ⟨fun _ => lookups_array_ne a, fun _ => rfl⟩

/-- The parts of operands that are folded: literals and what the others evaluate to. -/
def literalParts (ctx : Context ν) (operands : List (Expr ν (some .number))) : Parts ν :=
  ⟨operands.filterMap number?, values ctx (operands.filter fun e => e.number?.isNone)⟩

theorem literalParts_append (first second : List (Expr ν (some .number))) :
    literalParts ctx (first ++ second) =
      (literalParts ctx first).append (literalParts ctx second) := by
  unfold literalParts Parts.append
  rw [List.filterMap_append, List.filter_append, values_append]

theorem literalParts_open (operands : List (Expr ν (some .number))) :
    literalParts ctx (operands.filter fun e => e.number?.isNone) =
      ⟨[], values ctx (operands.filter fun e => e.number?.isNone)⟩ := by
  have noLiterals : (operands.filter fun e => e.number?.isNone).filterMap number? = [] := by
    rw [List.filterMap_eq_nil_iff]
    intro e isOpen
    exact Option.isNone_iff_eq_none.1 (List.mem_filter.1 isOpen).2
  unfold literalParts
  rw [noLiterals, List.filter_filter]
  simp only [Bool.and_self]

theorem literalParts_literal (x : ν) : literalParts ctx [.number x] = ⟨[x], []⟩ := rfl

theorem value_chainOf_eq_total (op : Associative) (operands : List (Expr ν (some .number))) :
    (evaluate ctx (chainOf op operands)).value =
      (literalParts ctx (operands.flatMap (chainOperands op))).total op := by
  unfold chainOf
  generalize operands.flatMap (chainOperands op) = joined
  have isEmpty : (literalParts ctx joined).others.isEmpty =
      (joined.filter fun e => e.number?.isNone).isEmpty := List.isEmpty_map
  have constant : (literalParts ctx joined).constant op =
      (joined.filterMap number?).foldl op.apply op.identity := rfl
  unfold Parts.total
  rw [isEmpty]
  dsimp only
  split
  · rw [evaluate]
    rfl
  · unfold Parts.merged
    dsimp only
    split
    · rename_i isIdentity
      rw [evaluate_chain, constant, if_pos isIdentity, List.append_nil]
      rfl
    · rename_i notIdentity
      rw [evaluate_chain, constant, if_neg notIdentity, values_append]
      simp only [values, List.map_cons, List.map_nil, evaluate, Traced.value_pure]
      rfl

/-- A chain inside its like contributes what is left of its parts. -/
theorem literalParts_chainOf {op : Associative} {operands : List (Expr ν (some .number))}
    (noLiteral : (chainOf op operands).number? = none) :
    literalParts ctx (chainOperands op (chainOf op operands)) =
      (literalParts ctx (operands.flatMap (chainOperands op))).merged op := by
  have own : ∀ operands : List (Expr ν (some .number)),
      chainOperands op (.chain op operands) = operands := fun _ => if_pos rfl
  unfold chainOf at noLiteral ⊢
  generalize operands.flatMap (chainOperands op) = joined at noLiteral ⊢
  have constant : (literalParts ctx joined).constant op =
      (joined.filterMap number?).foldl op.apply op.identity := rfl
  dsimp only at noLiteral ⊢
  unfold Parts.merged
  split at noLiteral
  · cases noLiteral
  · rename_i someRest
    rw [if_neg someRest]
    split
    · rename_i isIdentity
      rw [own, literalParts_open, constant, if_pos isIdentity]
      rfl
    · rename_i notIdentity
      rw [own, literalParts_append, literalParts_open, literalParts_literal, constant,
        if_neg notIdentity]
      exact congrArg (Parts.mk _) (List.append_nil _)

/-- The parts of an operand that is no chain of the operator. -/
theorem literalParts_alone {op : Associative} {e : Expr ν (some .number)}
    (faithful : Faithful ctx e) (alone : chainOperands op e.normalize = [e.normalize]) :
    literalParts ctx (chainOperands op e.normalize) = .single (evaluate ctx e) := by
  have value := faithful.self.value
  have isOpen := number?_normalize_eq_none_iff ctx e
  rw [alone]
  unfold Parts.single
  cases known : e.normalize.number? with
  | none =>
      have someLookups : ¬(evaluate ctx e).lookups.isEmpty = true :=
        fun isEmpty => isOpen.1 known (List.isEmpty_iff.1 isEmpty)
      unfold literalParts
      rw [if_neg someLookups, List.filterMap_cons_none known,
        List.filter_cons_of_pos (by rw [known]; rfl), ← value]
      rfl
  | some x =>
      have noLookups : (evaluate ctx e).lookups = [] := by
        apply Decidable.byContradiction
        intro someLookups
        rw [isOpen.2 someLookups] at known
        cases known
      have literal := eq_number_of_number? known
      rw [literal, evaluate] at value
      rw [literal, literalParts_literal, if_pos (List.isEmpty_iff.2 noLookups), ← value]
      rfl

theorem literalParts_operands {op : Associative} {operands : List (Expr ν (some .number))}
    (each : ∀ o ∈ operands, literalParts ctx (chainOperands op o.normalize) = o.parts ctx op) :
    literalParts ctx ((operands.map normalize).flatMap (chainOperands op)) =
      operandParts ctx op operands := by
  induction operands with
  | nil =>
      rw [operandParts]
      rfl
  | cons first rest ih =>
      have further := ih fun o inRest => each o (List.mem_cons_of_mem first inRest)
      rw [List.map_cons, List.flatMap_cons, literalParts_append, further,
        each first List.mem_cons_self, operandParts]

/-- Folding regroups an operand as its parts say. -/
theorem literalParts_normalize (op : Associative) (e : Expr ν (some .number))
    (faithful : Faithful ctx e) :
    literalParts ctx (chainOperands op e.normalize) = e.parts ctx op := by
  induction e using inductNumber with
  | chain inner operands ih =>
      have whole : evaluateChain ctx inner inner.identity operands =
          evaluate ctx (.chain inner operands) := by rw [evaluate]
      have isOpen := number?_normalize_eq_none_iff ctx (.chain inner operands)
      rw [parts, whole]
      by_cases joins : inner = op ∧ ¬(evaluate ctx (.chain inner operands)).lookups.isEmpty = true
      · rw [if_pos joins]
        obtain ⟨rfl, someLookups⟩ := joins
        have noLiteral := isOpen.2 fun noLookups => someLookups (List.isEmpty_iff.2 noLookups)
        rw [normalize_chain] at noLiteral ⊢
        rw [literalParts_chainOf noLiteral, literalParts_operands]
        intro o isOperand
        exact ih o isOperand (faithful.operand isOperand)
      · rw [if_neg joins]
        apply literalParts_alone faithful
        by_cases same : inner = op
        · have isLiteral : (chain inner operands).normalize.number? ≠ none := by
            intro noLiteral
            have someLookups := isOpen.1 noLiteral
            exact joins ⟨same, fun isEmpty => someLookups (List.isEmpty_iff.1 isEmpty)⟩
          obtain ⟨x, known⟩ := Option.ne_none_iff_exists'.1 isLiteral
          rw [eq_number_of_number? known]
          rfl
        · apply chainOperands_normalize
          intro operands' isChain
          cases isChain
          exact same rfl
  | path p | withDefault p d _ | number x | negate e _ | subtract l r _ _ | divide l r _ _
  | length a =>
      rw [parts_of_ne_chain]
      · apply literalParts_alone faithful (chainOperands_normalize _)
        intro operands isChain
        cases isChain
      · intro inner operands isChain
        cases isChain

/-- A folded chain gives the total of its parts. -/
theorem value_chainOf (op : Associative) {operands : List (Expr ν (some .number))}
    (each : ∀ o ∈ operands, Faithful ctx o) :
    (evaluate ctx (chainOf op (operands.map normalize))).value =
      (operandParts ctx op operands).total op := by
  rw [value_chainOf_eq_total,
    literalParts_operands fun o isOperand => literalParts_normalize op o (each o isOperand)]

end Expr

end PathExpr
