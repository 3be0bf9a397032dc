import PathExpr.Expr.Evaluate
import PathExpr.Proofs.Double.Neutral
import PathExpr.Proofs.Folding.Rounding
import PathExpr.Proofs.Grammar.Complete

set_option autoImplicit false

namespace PathExpr

namespace Double

open Float.Model (Format UnpackedFloat)
open Float.Model.UnpackedFloat

theorem same_iff {x y : Float} :
    Same x y ↔ x = y ∨ ∃ s s', unpacked x = .zero s ∧ unpacked y = .zero s' := by
  constructor
  · rintro (isEqual | ⟨isNaN, isNaN'⟩)
    · exact eq_or_zero_of_beq isEqual
    · exact .inl (eq_of_isNaN isNaN isNaN')
  · rintro (rfl | ⟨s, s', isZero, isZero'⟩)
    · exact Same.refl x
    · left
      show UnpackedFloat.beq (unpacked x) (unpacked y) = true
      rw [isZero, isZero']
      rfl

theorem Same.trans {x y z : Float} (first : Same x y) (second : Same y z) : Same x z := by
  rw [same_iff] at first second
  rcases first with rfl | ⟨s, t, isZero, isZero'⟩
  · exact same_iff.2 second
  · rcases second with rfl | ⟨_, t', -, isZero''⟩
    · exact same_iff.2 (.inr ⟨s, t, isZero, isZero'⟩)
    · exact same_iff.2 (.inr ⟨s, t', isZero, isZero''⟩)

theorem unpacked_packed_zero (s : Sign) : unpacked (packed (.zero s)) = .zero s := by
  cases s <;> rfl

/-- Whether the sign of a zero on the left makes no difference but to the sign of a zero. -/
def Unsigned (combine : UnpackedFloat → UnpackedFloat → UnpackedFloat) : Prop :=
  ∀ s s' v, combine (.zero s) v = combine (.zero s') v ∨
    ∃ t t', combine (.zero s) v = .zero t ∧ combine (.zero s') v = .zero t'

theorem unsigned_add : Unsigned (add Format.binary64) := by
  intro s s' v
  cases v with
  | zero t => cases s <;> cases s' <;> cases t <;> exact .inr ⟨_, _, rfl, rfl⟩
  | notANumber | infinity t | finite t m e positive => exact .inl rfl

theorem unsigned_sub : Unsigned (sub Format.binary64) := by
  intro s s' v
  cases v with
  | zero t => cases s <;> cases s' <;> cases t <;> exact .inr ⟨_, _, rfl, rfl⟩
  | notANumber | infinity t | finite t m e positive => exact .inl rfl

theorem Unsigned.same {combine : UnpackedFloat → UnpackedFloat → UnpackedFloat}
    (unsigned : Unsigned combine) {x y : Float} (same : Same x y) (z : Float) :
    Same (packed (combine (unpacked x) (unpacked z)))
      (packed (combine (unpacked y) (unpacked z))) := by
  rcases same_iff.1 same with rfl | ⟨s, s', isZero, isZero'⟩
  · exact Same.refl _
  · rw [isZero, isZero', same_iff]
    rcases unsigned s s' (unpacked z) with combined | ⟨t, t', combined, combined'⟩
    · left
      rw [combined]
    · right
      rw [combined, combined']
      exact ⟨t, t', unpacked_packed_zero t, unpacked_packed_zero t'⟩

theorem same_zero_add (x : Float) : Same (0 + x) x := by
  cases isZero : x == 0 with
  | false =>
      rw [zero_add_eq isZero]
      exact Same.refl x
  | true =>
      have parts : ∃ s, unpacked x = .zero s := by
        rcases eq_or_zero_of_beq isZero with rfl | ⟨s, -, parts, -⟩
        · exact ⟨.positive, rfl⟩
        · exact ⟨s, parts⟩
      obtain ⟨s, parts⟩ := parts
      have isSum : 0 + x = packed (add Format.binary64 (.zero .positive) (unpacked x)) := rfl
      rw [same_iff, isSum, parts]
      right
      cases s <;> exact ⟨_, _, unpacked_packed_zero _, rfl⟩

end Double

namespace Expr

open Double

/-- An operator between two numbers: it goes on with a sum or a product, by `+` or `*`, or by their
inverses `-` and `/`. -/
structure Binary where
  op : Associative
  direction : Direction
deriving Repr, DecidableEq

namespace Binary

def token : Binary → Token
  | ⟨.sum, .along⟩ => .plus
  | ⟨.sum, .against⟩ => .minus
  | ⟨.product, .along⟩ => .star
  | ⟨.product, .against⟩ => .slash

def apply : Binary → Float → Float → Float
  | ⟨.sum, .along⟩, x, y => x + y
  | ⟨.sum, .against⟩, x, y => x - y
  | ⟨.product, .along⟩, x, y => x * y
  | ⟨.product, .against⟩, x, y => x / y

end Binary

/-- Applies operators of one level from left to right. -/
def inTurn (op : Associative) (first : Float) (rest : List (Direction × Float)) : Float :=
  rest.foldl (fun x next => Binary.apply ⟨op, next.1⟩ x next.2) first

/-- Carries out the products and quotients. The first term is left, and the terms behind it with
their signs. -/
def afterProducts (first : Float) : List (Binary × Float) → Float × List (Direction × Float)
  | [] => (first, [])
  | (⟨.product, direction⟩, x) :: rest =>
      afterProducts (Binary.apply ⟨.product, direction⟩ first x) rest
  | (⟨.sum, direction⟩, x) :: rest =>
      (first, (direction, (afterProducts x rest).1) :: (afterProducts x rest).2)

/-- Products and quotients first, then sums and differences. -/
def usual (first : Float) (rest : List (Binary × Float)) : Float :=
  inTurn .sum (afterProducts first rest).1 (afterProducts first rest).2

/-- A product is the very double that the usual rule gives; a sum is the same number. -/
def Agrees : Associative → Float → Float → Prop
  | .sum => Same
  | .product => Eq

theorem Agrees.refl (op : Associative) (x : Float) : Agrees op x x := by
  cases op with
  | sum => exact Same.refl x
  | product => rfl

theorem Agrees.trans {op : Associative} {x y z : Float} (first : Agrees op x y)
    (second : Agrees op y z) : Agrees op x z := by
  cases op with
  | sum => exact Same.trans first second
  | product => exact Eq.trans first second

theorem Agrees.apply {op : Associative} {x y : Float} (agrees : Agrees op x y)
    (direction : Direction) (z : Float) :
    Agrees op (Binary.apply ⟨op, direction⟩ x z) (Binary.apply ⟨op, direction⟩ y z) := by
  cases op with
  | sum =>
      cases direction with
      | along => exact unsigned_add.same agrees z
      | against => exact unsigned_sub.same agrees z
  | product =>
      have same : x = y := agrees
      rw [same]
      exact Agrees.refl _ _

theorem agrees_identity (op : Associative) (x : Float) : Agrees op (op.apply op.identity x) x := by
  cases op with
  -- Zero plus negative zero is zero, so a sum is not the very same double.
  | sum => exact same_zero_add x
  | product => exact one_mul_eq x

theorem apply_along (op : Associative) (x y : Float) :
    Binary.apply ⟨op, .along⟩ x y = op.apply x y := by
  cases op <;> rfl

variable {ctx : Context Float}

theorem value_inverse (op : Associative) (left right : Expr Float (some .number)) :
    (evaluate ctx (inverse op left right)).value =
      Binary.apply ⟨op, .against⟩ (evaluate ctx left).value (evaluate ctx right).value := by
  cases op with
  | sum =>
      rw [inverse, evaluate]
      rfl
  | product =>
      rw [inverse, evaluate]
      rfl

def signedValue (ctx : Context Float) (step : Direction × Expr Float (some .number)) :
    Direction × Float :=
  (step.1, (evaluate ctx step.2).value)

/-- A run begins at the identity, which makes no difference to what it agrees with. -/
theorem agrees_run (op : Associative) {run : List (Expr Float (some .number))} (begun : run ≠ []) :
    Agrees op ((values ctx run).foldl op.apply op.identity)
      (evaluate ctx (ofRun op run)).value := by
  match run, begun with
  | [only], _ => exact agrees_identity op (evaluate ctx only).value
  | first :: second :: rest, _ =>
      rw [ofRun, evaluate_chain]
      · exact Agrees.refl op _
      · intro only isSingle
        cases isSingle

theorem agrees_extended (op : Associative) {run : List (Expr Float (some .number))}
    (begun : run ≠ []) (step : Direction × Expr Float (some .number)) :
    Agrees op (evaluate ctx (ofRun op (extended op run step))).value
      (Binary.apply ⟨op, step.1⟩ (evaluate ctx (ofRun op run)).value
        (evaluate ctx step.2).value) := by
  obtain ⟨direction, e⟩ := step
  cases direction with
  | against =>
      show Agrees op (evaluate ctx (inverse op (ofRun op run) e)).value _
      rw [value_inverse]
      exact Agrees.refl op _
  | along =>
      have isChain : ofRun op (run ++ [e]) = .chain op (run ++ [e]) := by
        match run, begun with
        | [_], _ => rfl
        | _ :: _ :: _, _ => rfl
      have lastValue : values ctx (run ++ [e]) = values ctx run ++ [(evaluate ctx e).value] :=
        List.map_append
      show Agrees op (evaluate ctx (ofRun op (run ++ [e]))).value _
      rw [isChain, evaluate_chain, lastValue, List.foldl_append]
      show Agrees op (op.apply _ (evaluate ctx e).value) _
      rw [← apply_along]
      exact (agrees_run op begun).apply .along _

/-- The tree of a run and the operands behind it has the value of applying the operators in
turn. -/
theorem agrees_joinedFrom {op : Associative} {run : List (Expr Float (some .number))}
    (begun : run ≠ []) (steps : List (Direction × Expr Float (some .number))) {x : Float}
    (agrees : Agrees op (evaluate ctx (ofRun op run)).value x) :
    Agrees op (evaluate ctx (joinedFrom op run steps)).value
      (inTurn op x (steps.map (signedValue ctx))) := by
  induction steps generalizing run x with
  | nil =>
      rw [← ofRun_eq_joinedFrom]
      exact agrees
  | cons step rest ih =>
      rw [joinedFrom_cons op begun]
      apply ih (extended_ne_nil op run step)
      exact (agrees_extended op begun step).trans (agrees.apply step.1 _)

theorem agrees_joined (op : Associative) (left : Expr Float (some .number))
    (steps : List (Direction × Expr Float (some .number))) :
    Agrees op (evaluate ctx (joined op left steps)).value
      (inTurn op (evaluate ctx left).value (steps.map (signedValue ctx))) :=
  agrees_joinedFrom (List.cons_ne_nil left []) steps (Agrees.refl op _)

def Further.behind {op : Associative} (direction : Direction) (part : Part .number) :
    Further op where
  direction := direction
  part := part
  written := Binary.token ⟨op, direction⟩ :: part.tokens
  isWritten := by
    cases op <;> cases direction
    · exact .plus part.tokens
    · exact .minus part.tokens
    · exact .star part.tokens
    · exact .slash part.tokens

def Part.followedBy {op : Associative} (first : Part .number) (rest : List (Further op)) :
    Part .number where
  tokens := first.tokens ++ rest.flatMap Further.written
  tree := match rest with
    | [] => first.tree
    | _ :: _ => .typed (joined op first.operand (rest.map Further.step))
  operand := joined op first.operand (rest.map Further.step)
  serves := by
    cases rest with
    | nil => exact first.serves
    | cons next rest => exact .typed _

theorem Part.derives_followedBy (op : Associative) {first : Part .number}
    {rest : List (Further op)}
    (phrase : Derives (.belowAssociative op) first.tokens first.tree)
    (phrases : ∀ next ∈ rest,
      Derives (.belowAssociative op) next.part.tokens next.part.tree) :
    Derives (.ofAssociative op) (first.followedBy rest).tokens (first.followedBy rest).tree := by
  cases rest with
  | nil =>
      have isNext : (Level.ofAssociative op).tighter? = some (.belowAssociative op) := by
        cases op <;> rfl
      show Derives _ (first.tokens ++ []) first.tree
      rw [List.append_nil]
      exact .tighter isNext phrase
  | cons next rest => exact .chain (List.cons_ne_nil next rest) phrase phrases

theorem Part.tree_followedBy {op : Associative} {first : Part .number} {rest : List (Further op)}
    (typed : first.tree = .typed first.operand ∨ rest ≠ []) :
    (first.followedBy rest).tree = .typed (first.followedBy rest).operand := by
  cases rest with
  | nil =>
      rcases typed with typed | several
      · exact typed
      · exact absurd rfl several
  | cons next rest => rfl

/-- Tokens that on their own are read as a sign, a negation or what has no operator, and as a
number. -/
structure NumberOperand where
  tokens : List Token
  tree : Tree
  number : Expr Float (some .number)
  isRead : unary tokens.length (Cursor.ofList tokens) = .ok (tree, ⟨[], tokens.length⟩)
  isNumber : tree.narrow .number = .ok number

namespace NumberOperand

def part (operand : NumberOperand) : Part .number where
  tokens := operand.tokens
  tree := operand.tree
  operand := operand.number
  serves := narrow_eq_ok_iff.1 operand.isNumber

theorem derives (operand : NumberOperand) :
    Derives .unary operand.part.tokens operand.part.tree := by
  obtain ⟨run, ⟨rest, -⟩, phrase⟩ := unary_sound _ operand.isRead
  have all : operand.tokens = run ++ [] := rest
  rw [List.append_nil] at all
  show Derives .unary operand.tokens operand.tree
  rw [all]
  exact phrase

end NumberOperand

/-- The factors behind the first one up to the first `+` or `-`, and the terms from there on. -/
def grouped : List (Binary × NumberOperand) → List (Further .product) × List (Further .sum)
  | [] => ([], [])
  | (⟨.product, direction⟩, operand) :: rest =>
      (.behind direction operand.part :: (grouped rest).1, (grouped rest).2)
  | (⟨.sum, direction⟩, operand) :: rest =>
      ([], .behind direction (operand.part.followedBy (grouped rest).1) :: (grouped rest).2)

theorem derives_factors (rest : List (Binary × NumberOperand)) :
    ∀ factor ∈ (grouped rest).1, Derives .unary factor.part.tokens factor.part.tree := by
  induction rest with
  | nil => exact List.forall_mem_nil _
  | cons next rest ih =>
      obtain ⟨⟨op, direction⟩, operand⟩ := next
      cases op with
      | product => exact List.forall_mem_cons.2 ⟨operand.derives, ih⟩
      | sum => exact List.forall_mem_nil _

/-- An operand with the factors behind it, up to the first `+` or `-`. -/
def NumberOperand.firstTerm (first : NumberOperand) (rest : List (Binary × NumberOperand)) :
    Part .number :=
  first.part.followedBy (grouped rest).1

theorem derives_firstTerm (first : NumberOperand) (rest : List (Binary × NumberOperand)) :
    Derives .product (first.firstTerm rest).tokens (first.firstTerm rest).tree :=
  Part.derives_followedBy .product first.derives (derives_factors rest)

theorem derives_terms (rest : List (Binary × NumberOperand)) :
    ∀ term ∈ (grouped rest).2, Derives .product term.part.tokens term.part.tree := by
  induction rest with
  | nil => exact List.forall_mem_nil _
  | cons next rest ih =>
      obtain ⟨⟨op, direction⟩, operand⟩ := next
      cases op with
      | product => exact ih
      | sum => exact List.forall_mem_cons.2 ⟨derives_firstTerm operand rest, ih⟩

def operandTokens (rest : List (Binary × NumberOperand)) : List Token :=
  rest.flatMap fun next => next.1.token :: next.2.tokens

theorem operandTokens_eq (rest : List (Binary × NumberOperand)) :
    (grouped rest).1.flatMap Further.written ++ (grouped rest).2.flatMap Further.written =
      operandTokens rest := by
  induction rest with
  | nil => rfl
  | cons next rest ih =>
      obtain ⟨⟨op, direction⟩, operand⟩ := next
      rw [operandTokens, List.flatMap_cons, ← operandTokens, ← ih]
      cases op with
      | product => exact List.append_assoc _ _ _
      | sum =>
          have assoc (factors terms : List Token) :
              operand.tokens ++ factors ++ terms = operand.tokens ++ (factors ++ terms) :=
            List.append_assoc _ _ _
          exact congrArg (Binary.token ⟨.sum, direction⟩ :: ·) (assoc _ _)

def operandValues (ctx : Context Float) (rest : List (Binary × NumberOperand)) :
    List (Binary × Float) :=
  rest.map fun next => (next.1, (evaluate ctx next.2.number).value)

theorem afterProducts_fst (rest : List (Binary × NumberOperand)) (x : Float) :
    (afterProducts x (operandValues ctx rest)).1 =
      inTurn .product x (((grouped rest).1.map Further.step).map (signedValue ctx)) := by
  induction rest generalizing x with
  | nil => rfl
  | cons next rest ih =>
      obtain ⟨⟨op, direction⟩, operand⟩ := next
      cases op with
      | product => exact ih _
      | sum => rfl

theorem value_firstTerm (first : NumberOperand) (rest : List (Binary × NumberOperand)) :
    (evaluate ctx (first.firstTerm rest).operand).value =
      (afterProducts (evaluate ctx first.number).value (operandValues ctx rest)).1 := by
  rw [afterProducts_fst]
  exact agrees_joined .product first.number ((grouped rest).1.map Further.step)

theorem afterProducts_snd (rest : List (Binary × NumberOperand)) (x : Float) :
    (afterProducts x (operandValues ctx rest)).2 =
      ((grouped rest).2.map Further.step).map (signedValue ctx) := by
  induction rest generalizing x with
  | nil => rfl
  | cons next rest ih =>
      obtain ⟨⟨op, direction⟩, operand⟩ := next
      cases op with
      | product => exact ih _
      | sum =>
          show _ = (direction, (evaluate ctx (operand.firstTerm rest).operand).value) :: _
          rw [value_firstTerm, ← ih]
          rfl

def NumberOperand.followedBy (first : NumberOperand) (rest : List (Binary × NumberOperand)) :
    Part .number :=
  (first.firstTerm rest).followedBy (grouped rest).2

theorem tokens_followedBy (first : NumberOperand) (rest : List (Binary × NumberOperand)) :
    (first.followedBy rest).tokens = first.tokens ++ operandTokens rest := by
  rw [← operandTokens_eq]
  exact List.append_assoc _ _ _

theorem derives_followedBy (first : NumberOperand) (rest : List (Binary × NumberOperand)) :
    Derives .or (first.followedBy rest).tokens (first.followedBy rest).tree := by
  have sum : Derives .sum (first.followedBy rest).tokens (first.followedBy rest).tree :=
    Part.derives_followedBy .sum (derives_firstTerm first rest) (derives_terms rest)
  exact sum.whole

theorem tree_followedBy (first : NumberOperand) (next : Binary × NumberOperand)
    (rest : List (Binary × NumberOperand)) :
    (first.followedBy (next :: rest)).tree = .typed (first.followedBy (next :: rest)).operand := by
  obtain ⟨⟨op, direction⟩, operand⟩ := next
  cases op with
  | sum => exact Part.tree_followedBy (.inr (List.cons_ne_nil _ _))
  | product =>
      exact Part.tree_followedBy (.inl (Part.tree_followedBy (.inr (List.cons_ne_nil _ _))))

theorem same_usual (first : NumberOperand) (rest : List (Binary × NumberOperand)) :
    Same (evaluate ctx (first.followedBy rest).operand).value
      (usual (evaluate ctx first.number).value (operandValues ctx rest)) := by
  rw [usual, ← value_firstTerm, afterProducts_snd]
  exact agrees_joined .sum (first.firstTerm rest).operand ((grouped rest).2.map Further.step)

/-- Operands that are joined by `+`, `-`, `*` and `/` are read as a number with the value of the
usual rule. -/
theorem ofTokens_arithmetic (first : NumberOperand) (next : Binary × NumberOperand)
    (rest : List (Binary × NumberOperand)) :
    ∃ e : Expr Float (some .number),
      ofTokens (first.tokens ++ operandTokens (next :: rest)) = .ok (.typed e) ∧
      ∀ ctx : Context Float, Same (evaluate ctx e).value
        (usual (evaluate ctx first.number).value (operandValues ctx (next :: rest))) := by
  refine ⟨(first.followedBy (next :: rest)).operand, ?_, fun ctx => same_usual first _⟩
  rw [← tokens_followedBy, ← tree_followedBy]
  exact ofTokens_of_derives (derives_followedBy first _)

/-- `8 / $ ? 2 + -3` with any number at `$`, or none. -/
theorem ofTokens_arithmetic_default :
    ∃ e : Expr Float (some .number),
      ofTokens [.number 8, .slash, .path .root, .otherwise, .number 2, .plus, .minus, .number 3] =
        .ok (.typed e) ∧
      ∀ ctx : Context Float, Same (evaluate ctx e).value
        (8 / ((ctx.lookup (some .number) .root).getD 2) + -3) := by
  let first : NumberOperand := ⟨[.number 8], .typed (.number 8), .number 8, rfl, rfl⟩
  let second : NumberOperand := ⟨[.path .root, .otherwise, .number 2],
    .withDefault .root (.typed (.number 2)), .withDefault .root (.number 2), rfl, rfl⟩
  let third : NumberOperand :=
    ⟨[.minus, .number 3], .typed (.negate (.number 3)), .negate (.number 3), rfl, rfl⟩
  have secondValue (ctx : Context Float) : (evaluate ctx second.number).value =
      (ctx.lookup (some .number) .root).getD 2 := by
    show (evaluate ctx (.withDefault .root (.number 2))).value = _
    rw [evaluate, Traced.value_bind, Context.find]
    dsimp only
    cases ctx.lookup (some .number) .root <;> rfl
  obtain ⟨e, read, value⟩ :=
    ofTokens_arithmetic first (⟨.product, .against⟩, second) [(⟨.sum, .along⟩, third)]
  refine ⟨e, read, fun ctx => ?_⟩
  rw [← secondValue]
  exact value ctx

end Expr

end PathExpr
