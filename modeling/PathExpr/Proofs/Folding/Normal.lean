import Mathlib.Data.List.Basic
import PathExpr.Proofs.Double.Neutral
import PathExpr.Proofs.Folding.Inside

set_option autoImplicit false

namespace PathExpr.Expr

variable {ν : Type}

def StaysInChain (op : Associative) (e : Expr ν (some .number)) : Prop :=
  e.number? = none ∧ ∀ operands, e ≠ .chain op operands

def StaysInLogic (op : Logical) (e : Expr ν (some .boolean)) : Prop :=
  e.boolean? = none ∧ ∀ operands, e ≠ .logic op operands

theorem chainOperands_of_stays {op : Associative} {e : Expr ν (some .number)}
    (stays : StaysInChain op e) : chainOperands op e = [e] := by
  unfold chainOperands
  split
  · rename_i inner operands
    exact if_neg fun same => stays.2 operands (by rw [same])
  · rfl

/-- Operands that stay are not split up, and there is no literal among them. -/
theorem operands_of_stay {op : Associative} {rest : List (Expr ν (some .number))}
    (stay : ∀ e ∈ rest, StaysInChain op e) :
    rest.flatMap (chainOperands op) = rest ∧ rest.filterMap number? = [] ∧
      rest.filter (fun e => e.number?.isNone) = rest := by
  refine ⟨?_, ?_, ?_⟩
  · rw [List.flatMap_congr fun e isOperand => chainOperands_of_stays (stay e isOperand),
      List.flatMap_singleton']
  · exact List.filterMap_eq_nil_iff.2 fun e isOperand => (stay e isOperand).1
  · exact List.filter_eq_self.2 fun e isOperand =>
      Option.isNone_iff_eq_none.2 (stay e isOperand).1

theorem logicOperands_of_stays {op : Logical} {e : Expr ν (some .boolean)}
    (stays : StaysInLogic op e) : logicOperands op e = [e] := by
  unfold logicOperands
  split
  · rename_i inner operands
    exact if_neg fun same => stays.2 operands (by rw [same])
  · rfl

theorem notOf_eq {e : Expr ν (some .boolean)} (folded : e.boolean? = none) :
    notOf e = .not e := by
  cases e with
  | boolean b => cases folded
  | _ => rfl

theorem binaryOf_eq {k : Kind}
    {node : Expr ν (some .number) → Expr ν (some .number) → Expr ν (some k)}
    {result : ν → ν → Expr ν (some k)} {l r : Expr ν (some .number)}
    (folded : l.number? = none ∨ r.number? = none) : binaryOf node result l r = node l r := by
  unfold binaryOf
  split
  · rename_i a b left right
    rw [left, right] at folded
    rcases folded with isOpen | isOpen <;> cases isOpen
  · rfl

theorem logicOf_eq {op : Logical} {operands : List (Expr ν (some .boolean))}
    (several : operands ≠ []) (stay : ∀ e ∈ operands, StaysInLogic op e) :
    logicOf op operands = .logic op operands := by
  have joined : operands.flatMap (logicOperands op) = operands := by
    rw [List.flatMap_congr fun e isOperand => logicOperands_of_stays (stay e isOperand),
      List.flatMap_singleton']
  have undecided : (operands.any fun e => e.boolean? == some op.absorbing) = false := by
    rw [List.any_eq_false]
    intro e isOperand
    rw [(stay e isOperand).1]
    exact Bool.false_ne_true
  have rest : operands.filter (fun e => e.boolean?.isNone) = operands :=
    List.filter_eq_self.2 fun e isOperand => Option.isNone_iff_eq_none.2 (stay e isOperand).1
  unfold logicOf
  dsimp only
  rw [joined, undecided, rest, if_neg Bool.false_ne_true,
    if_neg (several ∘ List.isEmpty_iff.1)]

def literalKind? : Expr ν none → Option Kind
  | .typed (.number _) => some .number
  | .typed (.boolean _) => some .boolean
  | .typed (.string _) => some .string
  | _ => none

variable [Arithmetic ν]

/-- The operands of a folded chain. -/
inductive FoldedOperands (op : Associative) : List (Expr ν (some .number)) → Prop
  | noLiteral {rest : List (Expr ν (some .number))} (several : rest ≠ [])
      (stay : ∀ e ∈ rest, StaysInChain op e) : FoldedOperands op rest
  /-- One literal, behind all other operands. -/
  | literal {rest : List (Expr ν (some .number))} {x : ν} (several : rest ≠ [])
      (stay : ∀ e ∈ rest, StaysInChain op e) (changes : op.isIdentity x = false) :
      FoldedOperands op (rest ++ [.number x])

/-- Nothing is left to fold at the root of a tree: no operation on literals, no operand that could
be joined to the operator, and no literal of a chain but a last one that changes something. -/
def IsFolded {k : Option Kind} : Expr ν k → Prop
  | .negate e => e.number? = none
  | .chain op operands => FoldedOperands op operands
  | .subtract l r => l.number? = none ∨ r.number? = none
  | .divide l r => l.number? = none ∨ r.number? = none
  | .not e => e.boolean? = none
  | .compare _ l r => l.number? = none ∨ r.number? = none
  | .equal l r => literalKind? l = none ∨ literalKind? l ≠ literalKind? r
  | .logic op operands => operands ≠ [] ∧ ∀ e ∈ operands, StaysInLogic op e
  | _ => True

/-- Nothing is left to fold in a tree, the defaults of its paths included. -/
def Normal {k : Option Kind} (e : Expr ν k) : Prop := Everywhere IsFolded e

theorem isFolded_negateOf (e : Expr ν (some .number)) : IsFolded (negateOf e) := by
  cases e with
  | number x => trivial
  | _ => rfl

theorem isFolded_notOf (e : Expr ν (some .boolean)) : IsFolded (notOf e) := by
  cases e with
  | boolean b => trivial
  | _ => rfl

theorem literalEqual?_eq_none_iff (l r : Expr ν none) :
    literalEqual? l r = none ↔ literalKind? l = none ∨ literalKind? l ≠ literalKind? r := by
  cases l with
  | typed d =>
      cases d with
      | number a | boolean a | string a =>
          cases r with
          | typed d' =>
              cases d' <;> simp only [literalEqual?, literalKind?, reduceCtorEq, ne_eq,
                not_false_eq_true, not_true_eq_false, or_true, or_self, Option.some.injEq]
          | path p | withDefault p d =>
              simp only [literalEqual?, literalKind?, reduceCtorEq, ne_eq, not_false_eq_true,
                or_true]
      | _ => simp only [literalEqual?, literalKind?, true_or]
  | path p | withDefault p d => simp only [literalEqual?, literalKind?, true_or]

theorem isFolded_equalOf (l r : Expr ν none) : IsFolded (equalOf l r) := by
  unfold equalOf
  split
  · trivial
  · rename_i incomparable
    exact (literalEqual?_eq_none_iff l r).1 incomparable

/-- What a folded operand contributes to a chain, its literals apart, stays an operand of it. -/
theorem staysInChain_of_mem {op : Associative} {e x : Expr ν (some .number)} (folded : IsFolded e)
    (contributes : x ∈ chainOperands op e) (isOpen : x.number? = none) : StaysInChain op x := by
  unfold chainOperands at contributes
  split at contributes
  · rename_i inner operands
    by_cases same : inner = op
    · rw [if_pos same] at contributes
      subst same
      cases folded with
      | noLiteral _ stay => exact stay x contributes
      | literal _ stay _ =>
          rcases List.mem_append.1 contributes with inRest | isLast
          · exact stay x inRest
          · rw [List.mem_singleton.1 isLast] at isOpen
            cases isOpen
    · rw [if_neg same, List.mem_singleton] at contributes
      subst contributes
      refine ⟨isOpen, fun operands' isChain => ?_⟩
      cases isChain
      exact same rfl
  · rename_i notChain
    rw [List.mem_singleton] at contributes
    subst contributes
    exact ⟨isOpen, fun operands isChain => notChain op operands isChain⟩

theorem isFolded_chainOf {op : Associative} {operands : List (Expr ν (some .number))}
    (folded : ∀ e ∈ operands, IsFolded e) : IsFolded (chainOf op operands) := by
  refine chainOf_cases (fun x => trivial) fun rest several members => ?_
  have stay : ∀ x ∈ rest, StaysInChain op x := by
    intro x inRest
    obtain ⟨isOpen, e, isOperand, contributes⟩ := members x inRest
    exact staysInChain_of_mem (folded e isOperand) contributes isOpen
  exact ⟨.noLiteral several stay, fun x changes => .literal several stay changes⟩

theorem staysInLogic_of_mem {op : Logical} {e x : Expr ν (some .boolean)} (folded : IsFolded e)
    (contributes : x ∈ logicOperands op e) (isOpen : x.boolean? = none) : StaysInLogic op x := by
  unfold logicOperands at contributes
  split at contributes
  · rename_i inner operands
    by_cases same : inner = op
    · rw [if_pos same] at contributes
      subst same
      exact folded.2 x contributes
    · rw [if_neg same, List.mem_singleton] at contributes
      subst contributes
      refine ⟨isOpen, fun operands' isLogic => ?_⟩
      cases isLogic
      exact same rfl
  · rename_i notLogic
    rw [List.mem_singleton] at contributes
    subst contributes
    exact ⟨isOpen, fun operands isLogic => notLogic op operands isLogic⟩

theorem isFolded_logicOf {op : Logical} {operands : List (Expr ν (some .boolean))}
    (folded : ∀ e ∈ operands, IsFolded e) : IsFolded (logicOf op operands) := by
  refine logicOf_cases (fun b => trivial) fun rest several members => ⟨several, fun x inRest => ?_⟩
  obtain ⟨isOpen, e, isOperand, contributes⟩ := members x inRest
  exact staysInLogic_of_mem (folded e isOperand) contributes isOpen

theorem isFolded_normalize {k : Option Kind} (e : Expr ν k) : IsFolded e.normalize := by
  have normalized : ∀ {k : Kind} {operands : List (Expr ν (some k))},
      (∀ e ∈ operands, IsFolded e.normalize) → ∀ e ∈ operands.map normalize, IsFolded e := by
    intro k operands each e isNormalized
    obtain ⟨o, isOperand, rfl⟩ := List.mem_map.1 isNormalized
    exact each o isOperand
  induction e using induct with
  | path p | withDefault p d _ | typed e _ | number x | length a _ | boolean b | string s =>
      trivial
  | negate e _ => exact isFolded_negateOf e.normalize
  | chain op operands ih =>
      rw [normalize_chain]
      exact isFolded_chainOf (normalized ih)
  | subtract l r _ _ =>
      refine binaryOf_cases (motive := IsFolded) (fun _ _ => trivial) id
  | divide l r _ _ =>
      refine binaryOf_cases (motive := IsFolded) (fun _ _ => trivial) id
  | not e _ => exact isFolded_notOf e.normalize
  | compare op l r _ _ =>
      refine binaryOf_cases (motive := IsFolded) (fun _ _ => trivial) id
  | equal l r _ _ => exact isFolded_equalOf l.normalize r.normalize
  | logic op operands ih =>
      rw [normalize_logic]
      exact isFolded_logicOf (normalized ih)

theorem normal_normalize {k : Option Kind} (e : Expr ν k) : Normal e.normalize :=
  everywhere_normalize (fun _ => trivial) fun s _ => isFolded_normalize s.2

theorem negateOf_eq {e : Expr ν (some .number)} (folded : e.number? = none) :
    negateOf e = .negate e := by
  cases e with
  | number x => cases folded
  | _ => rfl

theorem equalOf_eq {l r : Expr ν none}
    (folded : literalKind? l = none ∨ literalKind? l ≠ literalKind? r) :
    equalOf l r = .equal l r := by
  rw [equalOf, (literalEqual?_eq_none_iff l r).2 folded]

theorem isIdentity_identity (op : Associative) : op.isIdentity (op.identity : Float) = true := by
  cases op <;> decide +kernel

theorem identity_apply_of_changes {op : Associative} {x : Float}
    (changes : op.isIdentity x = false) : op.apply op.identity x = x := by
  cases op with
  | sum => exact Double.zero_add_eq changes
  | product => exact Double.one_mul_eq x

theorem chainOf_eq {op : Associative} {operands : List (Expr Float (some .number))}
    (folded : FoldedOperands op operands) : chainOf op operands = .chain op operands := by
  unfold chainOf
  dsimp only
  cases folded with
  | noLiteral several stay =>
      obtain ⟨joined, noLiterals, rest⟩ := operands_of_stay stay
      rw [joined, noLiterals, rest, List.foldl_nil, isIdentity_identity, if_pos rfl,
        if_neg (several ∘ List.isEmpty_iff.1)]
  | @literal rest x several stay changes =>
      -- The only literal is applied to the identity, and stays what it is.
      obtain ⟨joined, noLiterals, kept⟩ := operands_of_stay stay
      have last : List.flatMap (chainOperands op) [(.number x : Expr Float _)] = [.number x] := rfl
      have lastLiteral : List.filterMap number? [(.number x : Expr Float _)] = [x] := rfl
      have notKept : [(.number x : Expr Float _)].filter (fun e => e.number?.isNone) = [] := rfl
      rw [List.flatMap_append, joined, last, List.filterMap_append, noLiterals, lastLiteral,
        List.filter_append, kept, notKept, List.append_nil, List.nil_append, List.foldl_cons,
        List.foldl_nil, identity_apply_of_changes changes, changes, if_neg Bool.false_ne_true,
        if_neg (several ∘ List.isEmpty_iff.1)]

theorem normalize_of_normal {k : Option Kind} {e : Expr Float k} (normal : Normal e) :
    e.normalize = e := by
  induction e using induct with
  | path p | number x | boolean b | string s => rfl
  | withDefault p d ih => rw [normalize, ih (everywhere_withDefault.1 normal).2]
  | typed e ih => rw [normalize, ih (everywhere_typed.1 normal).2]
  | negate e ih =>
      obtain ⟨here, inner⟩ := everywhere_negate.1 normal
      rw [normalize, ih inner, negateOf_eq here]
  | chain op operands ih =>
      obtain ⟨here, inner⟩ := everywhere_chain.1 normal
      have same : operands.map normalize = operands := by
        rw [List.map_congr_left fun e isOperand => ih e isOperand (inner e isOperand), List.map_id']
      rw [normalize_chain, same, chainOf_eq here]
  | subtract l r ihLeft ihRight =>
      obtain ⟨here, left, right⟩ := everywhere_subtract.1 normal
      rw [normalize, ihLeft left, ihRight right, subtractOf, binaryOf_eq here]
  | divide l r ihLeft ihRight =>
      obtain ⟨here, left, right⟩ := everywhere_divide.1 normal
      rw [normalize, ihLeft left, ihRight right, divideOf, binaryOf_eq here]
  | length a ih => rw [normalize, ih (everywhere_length.1 normal).2]
  | not e ih =>
      obtain ⟨here, inner⟩ := everywhere_not.1 normal
      rw [normalize, ih inner, notOf_eq here]
  | compare op l r ihLeft ihRight =>
      obtain ⟨here, left, right⟩ := everywhere_compare.1 normal
      rw [normalize, ihLeft left, ihRight right, compareOf, binaryOf_eq here]
  | equal l r ihLeft ihRight =>
      obtain ⟨here, left, right⟩ := everywhere_equal.1 normal
      rw [normalize, ihLeft left, ihRight right, equalOf_eq here]
  | logic op operands ih =>
      obtain ⟨here, inner⟩ := everywhere_logic.1 normal
      have same : operands.map normalize = operands := by
        rw [List.map_congr_left fun e isOperand => ih e isOperand (inner e isOperand), List.map_id']
      rw [normalize_logic, same, logicOf_eq here.1 here.2]

/-- Normalizing gives normal trees, these are exactly the trees that it leaves alone, and so doing
it twice is doing it once. -/
theorem normalize_computes_normal_form {k : Option Kind} (e : Expr Float k) :
    Normal e.normalize ∧ (Normal e ↔ e.normalize = e) ∧ e.normalize.normalize = e.normalize :=
  ⟨normal_normalize e,
    ⟨normalize_of_normal, fun isFixed => isFixed ▸ normal_normalize e⟩,
    normalize_of_normal (normal_normalize e)⟩

end PathExpr.Expr
