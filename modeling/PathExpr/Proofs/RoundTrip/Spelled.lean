import PathExpr.Expr.Edit
import PathExpr.Expr.Evaluate
import PathExpr.Proofs.Double.Sign
import PathExpr.Proofs.Folding.Basic
import PathExpr.Proofs.Induction
import PathExpr.Proofs.RoundTrip.Parse

set_option autoImplicit false

namespace PathExpr.Expr

def spelledNumber (x : Float) : Expr Float (some .number) :=
  if x.isNaN then .divide (.number 0) (.number 0)
  else if x.isInf then .divide (.number (if Double.isNegative x then -1 else 1)) (.number 0)
  else .number x

def spelledLogic (op : Logical) :
    List (Expr Float (some .boolean)) → Expr Float (some .boolean)
  | [] => .boolean op.identity
  | [only] => .logic op [only, .boolean op.identity]
  | operands => .logic op operands

mutual

/-- The tree that the text of a tree spells. A number that no token stands for has become a
division, a logical operator has got further operands, and a path has lost its kind where the kind
does not show. -/
def spelled {k : Option Kind} : Expr Float k → Expr Float k
  | .path p => .path p
  | .withDefault p d => .withDefault p d.spelled
  | .typed e => untyped e.spelled
  | .number x => spelledNumber x
  | .negate e => .negate e.spelled
  | .chain op operands => .chain op (spelledNumbers operands)
  | .subtract l r => .subtract l.spelled r.spelled
  | .divide l r => .divide l.spelled r.spelled
  | .length a => .length a.spelled
  | .boolean b => .boolean b
  | .not e => .not e.spelled
  | .compare op l r => .compare op l.spelled r.spelled
  | .equal l r => .equal l.spelled r.spelled
  | .logic op operands => spelledLogic op (spelledBooleans operands)
  | .string s => .string s

def spelledNumbers : List (Expr Float (some .number)) → List (Expr Float (some .number))
  | [] => []
  | e :: rest => e.spelled :: spelledNumbers rest

def spelledBooleans : List (Expr Float (some .boolean)) → List (Expr Float (some .boolean))
  | [] => []
  | e :: rest => e.spelled :: spelledBooleans rest

end

theorem spelledNumbers_eq (operands : List (Expr Float (some .number))) :
    spelledNumbers operands = operands.map spelled := by
  induction operands with
  | nil => rfl
  | cons e rest ih => simp only [spelledNumbers, ih, List.map_cons]

theorem spelledBooleans_eq (operands : List (Expr Float (some .boolean))) :
    spelledBooleans operands = operands.map spelled := by
  induction operands with
  | nil => rfl
  | cons e rest ih => simp only [spelledBooleans, ih, List.map_cons]

theorem spelled_chain (op : Associative) (operands : List (Expr Float (some .number))) :
    spelled (.chain op operands) = .chain op (operands.map spelled) := by
  rw [spelled, spelledNumbers_eq]

theorem spelled_logic (op : Logical) (operands : List (Expr Float (some .boolean))) :
    spelled (.logic op operands) = spelledLogic op (operands.map spelled) := by
  rw [spelled, spelledBooleans_eq]

/-- A number is spelled by itself, or by a division by zero that it is the result of. -/
theorem spelledNumber_cases (x : Float) :
    x.isFinite = true ∧ spelledNumber x = .number x ∨
      ∃ a : Float, a.isFinite = true ∧ a / 0 = x ∧
        spelledNumber x = .divide (.number a) (.number 0) := by
  unfold spelledNumber
  split
  · rename_i isNaN
    exact .inr ⟨0, by decide +kernel, Double.zero_div_zero_eq isNaN, rfl⟩
  · rename_i isNumber
    split
    · rename_i isInf
      refine .inr ⟨_, ?_, Double.one_div_zero_eq isInf, rfl⟩
      split <;> decide +kernel
    · rename_i bounded
      exact .inl ⟨Double.isFinite_of_ordinary (eq_false_of_ne_true isNumber)
        (eq_false_of_ne_true bounded), rfl⟩

theorem pieces_untyped {k : Option Kind} (e : Expr Float k) : (untyped e).pieces = e.pieces := by
  induction e using induct with
  | path p => rw [untyped_path, pieces, pieces]
  | withDefault p d ih => rw [untyped_withDefault, pieces, pieces, ih]
  | typed e _ => rw [untyped_none]
  | _ => rfl

theorem pieces_spelledNumber (x : Float) : (spelledNumber x).pieces = numberPieces x := by
  have literal : ∀ {y : Float}, y.isFinite = true →
      (.number y : Expr Float (some .number)).pieces = [.token (.number y)] := by
    intro y finite
    rw [pieces, numberPieces_of_isFinite finite]
  have zero := literal (y := 0) (by decide +kernel)
  unfold spelledNumber
  split
  · rename_i isNaN
    rw [pieces, zero, numberPieces, if_pos isNaN]
  · rename_i isNumber
    split
    · rename_i isInf
      rw [pieces, zero, literal (by split <;> decide +kernel), numberPieces, if_neg isNumber,
        if_pos isInf]
    · rw [pieces]

theorem pieces_spelledLogic (op : Logical) (operands : List (Expr Float (some .boolean))) :
    (spelledLogic op operands).pieces = logicPieces op (operands.map pieces) := by
  match operands with
  | [] => rfl
  | [only] =>
      rw [spelledLogic, pieces, booleansPieces_eq]
      show Piece.parens (only.pieces ++ _) = Piece.parens (only.pieces ++ _ ++ _)
      rw [List.append_assoc]
      rfl
  | first :: second :: others =>
      show pieces (.logic op (first :: second :: others)) = _
      rw [pieces, booleansPieces_eq]

theorem pieces_spelled {k : Option Kind} (e : Expr Float k) : e.spelled.pieces = e.pieces := by
  induction e using induct with
  | path p | boolean b | string s => rfl
  | withDefault p d ih => rw [spelled, pieces, pieces, ih]
  | typed e ih => rw [spelled, pieces_untyped, ih, pieces]
  | number x => rw [spelled, pieces_spelledNumber, pieces]
  | negate e ih => rw [spelled, pieces, pieces, ih]
  | chain op operands ih =>
      have same : (operands.map spelled).map pieces = operands.map pieces := by
        rw [List.map_map]
        exact List.map_congr_left ih
      rw [spelled_chain, pieces, pieces, numbersPieces_eq, numbersPieces_eq, same]
  | subtract l r ihLeft ihRight => rw [spelled, pieces, pieces, ihLeft, ihRight]
  | divide l r ihLeft ihRight => rw [spelled, pieces, pieces, ihLeft, ihRight]
  | length a ih => rw [spelled, pieces, pieces, ih]
  | not e ih => rw [spelled, pieces, pieces, ih]
  | compare op l r ihLeft ihRight => rw [spelled, pieces, pieces, ihLeft, ihRight]
  | equal l r ihLeft ihRight => rw [spelled, pieces, pieces, ihLeft, ihRight]
  | logic op operands ih =>
      have same : (operands.map spelled).map pieces = operands.map pieces := by
        rw [List.map_map]
        exact List.map_congr_left ih
      rw [spelled_logic, pieces_spelledLogic, same, pieces, booleansPieces_eq]

theorem text_spelled {k : Option Kind} (e : Expr Float k) : e.spelled.text = e.text := by
  rw [text, pieces_spelled, text]

/-- A chain has at least one operand; no text spells a chain of none. -/
def HasOperands {k : Option Kind} : Expr Float k → Prop
  | .chain _ operands => operands ≠ []
  | _ => True

theorem Canonical.untyped {k : Option Kind} {e : Expr Float k} (canonical : Canonical e) :
    Canonical (untyped e) := by
  induction canonical with
  | path p =>
      rw [untyped_path]
      exact .path p
  | withDefault p _ ih =>
      rw [untyped_withDefault]
      exact .withDefault p ih
  | typed noLookup inside _ =>
      rw [untyped_none]
      exact .typed noLookup inside
  | number finite => exact .typed rfl (.number finite)
  | negate inside _ => exact .typed rfl (.negate inside)
  | chain op several inside _ => exact .typed rfl (.chain op several inside)
  | subtract left right _ _ => exact .typed rfl (.subtract left right)
  | divide left right _ _ => exact .typed rfl (.divide left right)
  | length inside _ => exact .typed rfl (.length inside)
  | boolean b => exact .typed rfl (.boolean b)
  | not inside _ => exact .typed rfl (.not inside)
  | compare op left right _ _ => exact .typed rfl (.compare op left right)
  | equal left right _ _ => exact .typed rfl (.equal left right)
  | logic op several inside _ => exact .typed rfl (.logic op several inside)
  | string s => exact .typed rfl (.string s)

theorem canonical_spelledNumber (x : Float) : Canonical (spelledNumber x) := by
  rcases spelledNumber_cases x with ⟨finite, isNumber⟩ | ⟨a, finite, -, isQuotient⟩
  · rw [isNumber]
    exact .number finite
  · rw [isQuotient]
    exact .divide (.number finite) (.number (by decide +kernel))

theorem canonical_spelledLogic (op : Logical) {operands : List (Expr Float (some .boolean))}
    (inside : ∀ e ∈ operands, Canonical e) : Canonical (spelledLogic op operands) := by
  match operands, inside with
  | [], _ => exact .boolean _
  | [only], inside =>
      have identity : Canonical (.boolean op.identity : Expr Float _) := .boolean _
      exact .logic op (Nat.le_refl 2) (List.forall_mem_cons.2
        ⟨inside only List.mem_cons_self, List.forall_mem_singleton.2 identity⟩)
  | first :: second :: others, inside =>
      exact .logic op (Nat.le_add_left 2 others.length) inside

/-- Unless a chain without operands is in the way, some text spells a tree as it is spelled. -/
theorem canonical_spelled {k : Option Kind} {e : Expr Float k}
    (hasOperands : Everywhere HasOperands e) : Canonical e.spelled := by
  induction e using induct with
  | path p => exact .path p
  | withDefault p d ih => exact .withDefault p (ih (everywhere_withDefault.1 hasOperands).2)
  | typed e ih => exact (ih (everywhere_typed.1 hasOperands).2).untyped
  | number x => exact canonical_spelledNumber x
  | negate e ih => exact .negate (ih (everywhere_negate.1 hasOperands).2)
  | chain op operands ih =>
      obtain ⟨several, inner⟩ := everywhere_chain.1 hasOperands
      rw [spelled_chain]
      exact .chain op (mt List.map_eq_nil_iff.1 several)
        (List.forall_mem_map.2 fun e isOperand => ih e isOperand (inner e isOperand))
  | subtract l r ihLeft ihRight =>
      obtain ⟨-, left, right⟩ := everywhere_subtract.1 hasOperands
      exact .subtract (ihLeft left) (ihRight right)
  | divide l r ihLeft ihRight =>
      obtain ⟨-, left, right⟩ := everywhere_divide.1 hasOperands
      exact .divide (ihLeft left) (ihRight right)
  | length a ih => exact .length (ih (everywhere_length.1 hasOperands).2)
  | boolean b => exact .boolean b
  | not e ih => exact .not (ih (everywhere_not.1 hasOperands).2)
  | compare op l r ihLeft ihRight =>
      obtain ⟨-, left, right⟩ := everywhere_compare.1 hasOperands
      exact .compare op (ihLeft left) (ihRight right)
  | equal l r ihLeft ihRight =>
      obtain ⟨-, left, right⟩ := everywhere_equal.1 hasOperands
      exact .equal (ihLeft left) (ihRight right)
  | logic op operands ih =>
      have inner := (everywhere_logic.1 hasOperands).2
      rw [spelled_logic]
      exact canonical_spelledLogic op
        (List.forall_mem_map.2 fun e isOperand => ih e isOperand (inner e isOperand))
  | string s => exact .string s

theorem parse_text_eq_spelled {e : Tree} (hasOperands : Everywhere HasOperands e) :
    parse e.text = .ok e.spelled := by
  rw [← text_spelled]
  exact parse_of_canonical (canonical_spelled hasOperands)

/-- A path with a kind that does not show, since nothing that asks for the kind stands around it. -/
def hidesKind {k : Option Kind} : Expr Float k → Bool
  | .typed e => e.isLookup
  | _ => false

/-- No side of `==` and no default of a path hides a kind. -/
def ShowsKinds {k : Option Kind} : Expr Float k → Prop
  | .equal l r => l.hidesKind = false ∧ r.hidesKind = false
  | .withDefault _ d => d.hidesKind = false
  | _ => True

theorem hidesKind_of_kind {k : Kind} (e : Expr Float (some k)) : e.hidesKind = false := by
  cases e <;> rfl

theorem isLookup_spelled {k : Kind} (e : Expr Float (some k)) :
    e.spelled.isLookup = e.isLookup := by
  cases e with
  | number x =>
      rcases spelledNumber_cases x with ⟨-, same⟩ | ⟨a, -, -, same⟩
      · rw [spelled, same]
      · rw [spelled, same]
        rfl
  | logic op operands =>
      rw [spelled_logic]
      match operands with
      | [] | [_] | _ :: _ :: _ => rfl
  | _ => rfl

variable {ctx : Context Float}

theorem evaluate_spelledNumber (x : Float) :
    evaluate ctx (spelledNumber x) = evaluate ctx (.number x) := by
  rcases spelledNumber_cases x with ⟨-, same⟩ | ⟨a, -, quotient, same⟩
  · rw [same]
  · rw [same]
    simp only [evaluate]
    show (⟨a / 0, []⟩ : Traced Float) = ⟨x, []⟩
    rw [quotient]

theorem evaluate_spelledLogic (op : Logical) (operands : List (Expr Float (some .boolean))) :
    evaluate ctx (spelledLogic op operands) = evaluateLogic ctx op operands := by
  match operands with
  | [] => rw [spelledLogic, evaluate, evaluateLogic]
  | [only] =>
      rw [spelledLogic, evaluate]
      exact evaluateLogic_append_identity op [only]
  | first :: second :: others =>
      show evaluate ctx (.logic op (first :: second :: others)) = _
      rw [evaluate]

theorem evaluateChain_map {f : Expr Float (some .number) → Expr Float (some .number)}
    {op : Associative} {acc : Float} {operands : List (Expr Float (some .number))}
    (each : ∀ e ∈ operands, evaluate ctx (f e) = evaluate ctx e) :
    evaluateChain ctx op acc (operands.map f) = evaluateChain ctx op acc operands := by
  induction operands generalizing acc with
  | nil => rfl
  | cons first rest ih =>
      obtain ⟨here, further⟩ := List.forall_mem_cons.1 each
      simp only [List.map_cons, evaluateChain, here, ih further]

theorem evaluateLogic_map {f : Expr Float (some .boolean) → Expr Float (some .boolean)}
    {op : Logical} {operands : List (Expr Float (some .boolean))}
    (each : ∀ e ∈ operands, evaluate ctx (f e) = evaluate ctx e) :
    evaluateLogic ctx op (operands.map f) = evaluateLogic ctx op operands := by
  induction operands with
  | nil => rfl
  | cons first rest ih =>
      obtain ⟨here, further⟩ := List.forall_mem_cons.1 each
      rw [List.map_cons, evaluateLogic, evaluateLogic, here, ih further]

theorem evaluate_spelled {k : Option Kind} {e : Expr Float k} (inside : Everywhere ShowsKinds e)
    (atRoot : e.hidesKind = false) : evaluate ctx e.spelled = evaluate ctx e := by
  induction e using induct with
  | path p | boolean b | string s => rfl
  | withDefault p d ih =>
      obtain ⟨here, inner⟩ := everywhere_withDefault.1 inside
      rw [spelled, evaluate, evaluate, ih inner here]
  | typed e ih =>
      -- Anything but a path shows its kind, and keeps it.
      have isNode : e.spelled.isLookup = false := (isLookup_spelled e).trans atRoot
      rw [spelled, untyped_of_isLookup isNode, evaluate, evaluate,
        ih (everywhere_typed.1 inside).2 (hidesKind_of_kind e)]
  | number x => exact evaluate_spelledNumber x
  | negate e ih =>
      rw [spelled, evaluate, evaluate, ih (everywhere_negate.1 inside).2 (hidesKind_of_kind e)]
  | chain op operands ih =>
      have inner := (everywhere_chain.1 inside).2
      rw [spelled_chain, evaluate, evaluate]
      exact evaluateChain_map fun e isOperand =>
        ih e isOperand (inner e isOperand) (hidesKind_of_kind e)
  | subtract l r ihLeft ihRight =>
      obtain ⟨-, left, right⟩ := everywhere_subtract.1 inside
      rw [spelled, evaluate, evaluate, ihLeft left (hidesKind_of_kind l),
        ihRight right (hidesKind_of_kind r)]
  | divide l r ihLeft ihRight =>
      obtain ⟨-, left, right⟩ := everywhere_divide.1 inside
      rw [spelled, evaluate, evaluate, ihLeft left (hidesKind_of_kind l),
        ihRight right (hidesKind_of_kind r)]
  | length a ih =>
      rw [spelled, evaluate, evaluate, ih (everywhere_length.1 inside).2 (hidesKind_of_kind a)]
  | not e ih =>
      rw [spelled, evaluate, evaluate, ih (everywhere_not.1 inside).2 (hidesKind_of_kind e)]
  | compare op l r ihLeft ihRight =>
      obtain ⟨-, left, right⟩ := everywhere_compare.1 inside
      rw [spelled, evaluate, evaluate, ihLeft left (hidesKind_of_kind l),
        ihRight right (hidesKind_of_kind r)]
  | equal l r ihLeft ihRight =>
      obtain ⟨here, left, right⟩ := everywhere_equal.1 inside
      rw [spelled, evaluate, evaluate, ihLeft left here.1, ihRight right here.2]
  | logic op operands ih =>
      have inner := (everywhere_logic.1 inside).2
      rw [spelled_logic, evaluate_spelledLogic, evaluate]
      exact evaluateLogic_map fun e isOperand =>
        ih e isOperand (inner e isOperand) (hidesKind_of_kind e)

def narrowedTo : Option Kind → Tree → Except Kind Tree
  | none, e => .ok e
  | some k, e => narrowed k e

/-- At the root, a hidden kind is not lost: it can be given back. -/
theorem narrowedTo_spelled {e : Tree} (inside : Everywhere ShowsKinds e) :
    ∃ n, narrowedTo e.kind? e.spelled = .ok n ∧
      ∀ ctx : Context Float, n.evaluate ctx = e.evaluate ctx := by
  cases e with
  | path p => exact ⟨.path p, rfl, fun _ => rfl⟩
  | withDefault p d => exact ⟨_, rfl, fun ctx => evaluate_spelled inside rfl⟩
  | @typed k e =>
      have narrows : narrow k (untyped e.spelled) = .ok e.spelled :=
        narrow_eq_ok_iff.2 (serves_untyped e.spelled)
      refine ⟨.typed e.spelled, ?_, fun ctx => ?_⟩
      · show (narrow k (untyped e.spelled)).map Expr.typed = _
        rw [narrows]
        rfl
      · have same : evaluate ctx e.spelled = evaluate ctx e :=
          evaluate_spelled (everywhere_typed.1 inside).2 (hidesKind_of_kind e)
        rw [evaluate, evaluate, same]

/-- What is read back from the text of a tree is written in the same way. Where kinds show, it has
the results of the tree and makes its lookups, once it has been given the kind of the tree. -/
theorem parse_text_faithful {e : Tree} (hasOperands : Everywhere HasOperands e) :
    ∃ p, parse e.text = .ok p ∧ p.text = e.text ∧
      (Everywhere ShowsKinds e → ∃ n, narrowedTo e.kind? p = .ok n ∧
        ∀ ctx : Context Float, n.evaluate ctx = e.evaluate ctx) :=
  ⟨e.spelled, parse_text_eq_spelled hasOperands, text_spelled e, narrowedTo_spelled⟩

/-- A path whose kind does not show, with a default that holds an operator with one operand and an
infinity. -/
theorem parse_text_faithful_padded_default :
    let e : Tree := .typed (.withDefault ⟨[.field "a"]⟩
      (.logic .or [.equal (.path ⟨[.field "b"]⟩) (.typed (.number (1 / 0)))]))
    Everywhere HasOperands e ∧ Everywhere ShowsKinds e ∧
      ∃ p n, parse "($.a ? (($.b == (1 / 0)) || false))" = .ok p ∧ narrowed .boolean p = .ok n ∧
        ∀ ctx : Context Float, n.evaluate ctx = e.evaluate ctx := by
  intro e
  have written : e.text = "($.a ? (($.b == (1 / 0)) || false))" := by decide +kernel
  have hasOperands : Everywhere HasOperands e :=
    everywhere_typed.2 ⟨trivial, everywhere_withDefault.2 ⟨trivial, everywhere_logic.2 ⟨trivial,
      List.forall_mem_singleton.2 (everywhere_equal.2 ⟨trivial, everywhere_of_leaf rfl trivial,
        everywhere_typed.2 ⟨trivial, everywhere_of_leaf rfl trivial⟩⟩)⟩⟩⟩
  have showsKinds : Everywhere ShowsKinds e :=
    everywhere_typed.2 ⟨trivial, everywhere_withDefault.2 ⟨rfl, everywhere_logic.2 ⟨trivial,
      List.forall_mem_singleton.2 (everywhere_equal.2 ⟨⟨rfl, rfl⟩, everywhere_of_leaf rfl trivial,
        everywhere_typed.2 ⟨trivial, everywhere_of_leaf rfl trivial⟩⟩)⟩⟩⟩
  obtain ⟨p, read, -, narrows⟩ := parse_text_faithful hasOperands
  obtain ⟨n, isNarrowed, same⟩ := narrows showsKinds
  rw [written] at read
  exact ⟨hasOperands, showsKinds, p, n, read, isNarrowed, same⟩

end PathExpr.Expr
