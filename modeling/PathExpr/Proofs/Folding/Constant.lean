import PathExpr.Proofs.Folding.Normal
import PathExpr.Proofs.Folding.Regrouped

set_option autoImplicit false

namespace PathExpr.Expr

variable {ν : Type}

/-- Neither a path, with or without a default, nor a length. -/
def AsksNothing {k : Option Kind} : Expr ν k → Prop
  | .path _ => False
  | .withDefault _ _ => False
  | .length _ => False
  | _ => True

def Constant {k : Option Kind} (e : Expr ν k) : Prop := Everywhere AsksNothing e

/-- The sides of an equality are of one kind, or neither is of a known kind. -/
def SidesAgree {k : Option Kind} : Expr ν k → Prop
  | .equal l r => l.kind? = r.kind?
  | _ => True

def IsLiteral {k : Option Kind} : Expr ν k → Prop
  | .typed e => IsLiteral e
  | .number _ => True
  | .boolean _ => True
  | .string _ => True
  | _ => False

theorem IsLiteral.eq_boolean {e : Expr ν (some .boolean)} (isLiteral : IsLiteral e) :
    ∃ b, e = .boolean b := by
  cases e with
  | boolean b => exact ⟨b, rfl⟩
  | _ => cases isLiteral

theorem IsLiteral.literalKind?_eq {e : Expr ν none} (isLiteral : IsLiteral e) :
    literalKind? e = e.kind? := by
  cases e with
  | typed d =>
      cases d with
      | number x => rfl
      | boolean b => rfl
      | string s => rfl
      | _ => cases isLiteral
  | _ => cases isLiteral

theorem isLiteral_logicOf {op : Logical} {operands : List (Expr ν (some .boolean))}
    (each : ∀ e ∈ operands, IsLiteral e) : IsLiteral (logicOf op operands) := by
  refine logicOf_cases (fun b => trivial) fun rest several members => ?_
  obtain ⟨x, inRest⟩ := List.exists_mem_of_ne_nil rest several
  obtain ⟨isOpen, e, isOperand, contributes⟩ := members x inRest
  obtain ⟨b, rfl⟩ := (each e isOperand).eq_boolean
  rw [List.mem_singleton.1 contributes] at isOpen
  cases isOpen

variable [Arithmetic ν]

theorem lookups_eq_nil_iff (ctx : Context ν) (e : Expr ν (some .number)) :
    (evaluate ctx e).lookups = [] ↔ Constant e := by
  unfold Constant
  induction e using inductNumber with
  | path p =>
      rw [evaluate]
      constructor
      · intro noLookup
        cases noLookup
      · intro constant
        exact constant.self.elim
  | withDefault p d _ =>
      rw [evaluate]
      constructor
      · intro noLookup
        cases noLookup
      · intro constant
        exact constant.self.elim
  | number x =>
      rw [evaluate]
      exact ⟨fun _ => everywhere_of_leaf rfl trivial, fun _ => rfl⟩
  | negate e ih =>
      rw [evaluate, Traced.lookups_map, ih, everywhere_negate]
      exact ⟨fun inner => ⟨trivial, inner⟩, And.right⟩
  | chain op operands ih =>
      rw [evaluate_chain, everywhere_chain]
      show operands.flatMap _ = [] ↔ _
      rw [List.flatMap_eq_nil_iff]
      constructor
      · intro noLookups
        exact ⟨trivial, fun o isOperand => (ih o isOperand).1 (noLookups o isOperand)⟩
      · intro constant o isOperand
        exact (ih o isOperand).2 (constant.2 o isOperand)
  | subtract l r ihLeft ihRight =>
      rw [evaluate, Traced.lookups_bind, Traced.lookups_map, List.append_eq_nil_iff, ihLeft,
        ihRight, everywhere_subtract]
      exact ⟨fun inner => ⟨trivial, inner⟩, And.right⟩
  | divide l r ihLeft ihRight =>
      rw [evaluate, Traced.lookups_bind, Traced.lookups_map, List.append_eq_nil_iff, ihLeft,
        ihRight, everywhere_divide]
      exact ⟨fun inner => ⟨trivial, inner⟩, And.right⟩
  | length a =>
      rw [evaluate, Traced.lookups_map]
      exact ⟨fun noLookup => absurd noLookup (lookups_array_ne a),
        fun constant => constant.self.elim⟩

theorem exists_normalize_eq_number_iff (e : Expr ν (some .number)) :
    (∃ x, e.normalize = .number x) ↔ Constant e := by
  have isOpen := number?_normalize_eq_none_iff Context.empty e
  rw [← lookups_eq_nil_iff Context.empty]
  constructor
  · rintro ⟨x, isLiteral⟩
    rw [isLiteral] at isOpen
    exact Decidable.not_not.1 fun someLookups => nomatch isOpen.2 someLookups
  · intro noLookups
    obtain ⟨x, known⟩ := Option.ne_none_iff_exists'.1 fun noLiteral => isOpen.1 noLiteral noLookups
    exact ⟨x, eq_number_of_number? known⟩

variable {ctx : Context ν}

/-- Literals are put together in the order in which they are evaluated, so nothing is regrouped. -/
theorem chainOf_numbers (op : Associative) (xs : List ν) :
    chainOf op (xs.map .number) = .number (xs.foldl op.apply op.identity) := by
  have joined : (xs.map Expr.number).flatMap (chainOperands op) = xs.map Expr.number := by
    rw [List.flatMap_map]
    exact List.map_eq_flatMap.symm
  have literals : (xs.map Expr.number).filterMap number? = xs := by
    rw [List.filterMap_map]
    exact List.filterMap_some
  have rest : (xs.map Expr.number).filter (fun e => e.number?.isNone) = [] := by
    rw [List.filter_eq_nil_iff]
    intro e isLiteral
    obtain ⟨x, -, rfl⟩ := List.mem_map.1 isLiteral
    exact Bool.false_ne_true
  unfold chainOf
  dsimp only
  rw [joined, literals, rest]
  rfl

theorem Faithful.normalize_eq_number {e : Expr ν (some .number)} (faithful : Faithful ctx e)
    (constant : Constant e) : e.normalize = .number (evaluate ctx e).value := by
  obtain ⟨x, isLiteral⟩ := (exists_normalize_eq_number_iff e).2 constant
  have value := faithful.self.value
  rw [isLiteral, evaluate] at value
  rw [isLiteral, ← value]
  rfl

/-- Folding a constant tree keeps the results of all trees inside it. -/
theorem faithful_of_constant {k : Option Kind} {e : Expr ν k} (constant : Constant e) :
    Faithful ctx e := by
  apply faithful_of_chains
  intro op operands isSubtree each
  have constants : ∀ o ∈ operands, Constant o := by
    intro o isOperand s inOperand
    exact constant s (mem_subtrees_trans isSubtree
      (mem_subtrees_trans (operand_mem_subtrees isOperand) inOperand))
  have literals : operands.map normalize = (values ctx operands).map .number := by
    rw [values, List.map_map]
    exact List.map_congr_left fun o isOperand =>
      (each o isOperand).normalize_eq_number (constants o isOperand)
  rw [literals, chainOf_numbers, evaluate_chain, evaluate]
  exact ⟨rfl, List.nil_sublist _⟩

theorem isLiteral_equalOf {l r : Expr ν none} (left : IsLiteral l) (right : IsLiteral r)
    (agree : l.kind? = r.kind?) : IsLiteral (equalOf l r) := by
  unfold equalOf
  split
  · trivial
  · rename_i incomparable
    rw [literalEqual?_eq_none_iff, left.literalKind?_eq, right.literalKind?_eq] at incomparable
    rcases incomparable with noKind | differ
    · cases l with
      | typed d => cases noKind
      | _ => cases left
    · exact absurd agree differ

theorem isLiteral_normalize {k : Option Kind} {e : Expr ν k} (constant : Constant e)
    (agree : Everywhere SidesAgree e) : IsLiteral e.normalize := by
  unfold Constant at constant
  induction e using induct with
  | path | withDefault | length => exact constant.self.elim
  | number | boolean | string => trivial
  | typed e ih =>
      exact ih (everywhere_typed.1 constant).2 (everywhere_typed.1 agree).2
  | negate | chain | subtract | divide =>
      obtain ⟨x, isNumber⟩ := (exists_normalize_eq_number_iff _).2 constant
      rw [isNumber]
      trivial
  | not e ih =>
      have isLiteral := ih (everywhere_not.1 constant).2 (everywhere_not.1 agree).2
      obtain ⟨b, isBoolean⟩ := isLiteral.eq_boolean
      rw [normalize, isBoolean]
      trivial
  | compare op l r ihLeft ihRight =>
      obtain ⟨-, left, right⟩ := everywhere_compare.1 constant
      obtain ⟨a, isLeft⟩ := (exists_normalize_eq_number_iff l).2 left
      obtain ⟨b, isRight⟩ := (exists_normalize_eq_number_iff r).2 right
      rw [normalize, isLeft, isRight]
      trivial
  | equal l r ihLeft ihRight =>
      obtain ⟨-, left, right⟩ := everywhere_equal.1 constant
      obtain ⟨here, agreeLeft, agreeRight⟩ := everywhere_equal.1 agree
      apply isLiteral_equalOf (ihLeft left agreeLeft) (ihRight right agreeRight)
      rw [kind?_normalize, kind?_normalize]
      exact here
  | logic op operands ih =>
      rw [normalize_logic]
      refine isLiteral_logicOf (List.forall_mem_map.2 fun o isOperand => ?_)
      exact ih o isOperand ((everywhere_logic.1 constant).2 o isOperand)
        ((everywhere_logic.1 agree).2 o isOperand)

theorem normalize_eq_boolean {e : Expr ν (some .boolean)} (constant : Constant e)
    (agree : Everywhere SidesAgree e) : e.normalize = .boolean (evaluate ctx e).value := by
  obtain ⟨b, isBoolean⟩ := (isLiteral_normalize constant agree).eq_boolean
  have faithful : Faithful ctx e := faithful_of_constant constant
  have value := faithful.self.value
  rw [isBoolean, evaluate] at value
  rw [isBoolean, ← value]
  rfl

/-- Numbers are folded to literals exactly if no path and no length stands in them, booleans without
them if the sides of their equalities agree, and the literals are the results in every context. -/
theorem normalize_constant :
    (∀ e : Expr Float (some .number),
      ((∃ x, e.normalize = .number x) ↔ Constant e) ∧
        ∀ x, e.normalize = .number x → ∀ ctx, evaluate ctx e = .pure x) ∧
    ∀ e : Expr Float (some .boolean), Constant e → Everywhere SidesAgree e →
      ∀ ctx, e.normalize = .boolean (evaluate ctx e).value := by
  refine ⟨fun e => ⟨exists_normalize_eq_number_iff e, fun x isLiteral ctx => ?_⟩,
    fun e constant agree ctx => normalize_eq_boolean constant agree⟩
  have constant := (exists_normalize_eq_number_iff e).1 ⟨x, isLiteral⟩
  have faithful : Faithful ctx e := faithful_of_constant constant
  have value := faithful.normalize_eq_number constant
  have noLookups := (lookups_eq_nil_iff ctx e).2 constant
  rw [isLiteral, number.injEq] at value
  rw [value]
  exact congrArg (Traced.mk _) noLookups

/-- What is no number is not equal to itself, before evaluation as in it. -/
theorem normalize_constant_not_equal :
    let nan : Expr Float none := .typed (.divide (.number 0) (.number 0))
    let e : Expr Float (some .boolean) :=
      .logic .or [.equal nan nan, .not (.equal (.typed (.string "a")) (.typed (.string "a")))]
    (Constant e ∧ Everywhere SidesAgree e) ∧
      e.normalize = .boolean (evaluate Context.empty e).value ∧ e.normalize = .boolean false := by
  intro nan e
  have constant : Constant e := by
    simp only [Constant, Everywhere, subtrees, e, nan, inside, insideBooleans,
      List.forall_mem_cons, List.forall_mem_append, AsksNothing, List.not_mem_nil, false_implies,
      implies_true, and_self]
  have agree : Everywhere SidesAgree e := by
    simp only [Everywhere, subtrees, e, nan, inside, insideBooleans, List.forall_mem_cons,
      List.forall_mem_append, SidesAgree, List.not_mem_nil, false_implies, implies_true, and_self]
  refine ⟨⟨constant, agree⟩, normalize_constant.2 e constant agree Context.empty, ?_⟩
  rfl

end PathExpr.Expr
