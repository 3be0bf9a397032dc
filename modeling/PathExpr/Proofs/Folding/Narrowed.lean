import PathExpr.Expr.Normalize
import PathExpr.Expr.Text
import PathExpr.Proofs.Grammar.Basic
import PathExpr.Proofs.Induction

set_option autoImplicit false

namespace PathExpr.Expr

variable {ν : Type}

section

variable [Arithmetic ν]

/-- Folding before narrowing is folding after it, and where narrowing fails it names the same
kind. -/
theorem narrow_normalize (k : Kind) (e : Expr ν none) :
    e.normalize.narrow k = (e.narrow k).map normalize := by
  induction e using inductUntyped with
  | path p => rfl
  | withDefault p d ih =>
      simp only [normalize, narrow]
      rw [ih]
      cases d.narrow k with
      | ok n => rfl
      | error found => rfl
  | @typed j e =>
      simp only [normalize, narrow]
      by_cases same : j = k
      · subst same
        rw [dif_pos rfl, dif_pos rfl]
        rfl
      · rw [dif_neg same, dif_neg same]
        rfl

/-- Nothing is folded in strings and arrays: they are literals, or paths with such defaults. -/
theorem normalize_of_noOperator {k : Option Kind} (e : Expr ν k)
    (noOperator : k = some .string ∨ k = some .array) : e.normalize = e := by
  induction e using induct with
  | path p => rfl
  | withDefault p d ih => rw [normalize, ih noOperator]
  | string s => rfl
  | typed | number | negate | chain | subtract | divide | length | boolean | not | compare | equal
  | logic => rcases noOperator with isString | isArray <;> contradiction

theorem narrow_normalize_of_noOperator {k : Kind} (noOperator : k = .string ∨ k = .array)
    (e : Expr ν none) : e.normalize.narrow k = e.narrow k := by
  rw [narrow_normalize]
  cases e.narrow k with
  | error found => rfl
  | ok n =>
      show Except.ok n.normalize = Except.ok n
      rw [normalize_of_noOperator n (noOperator.imp (congrArg some) (congrArg some))]

end

theorem Serves.pieces_eq {k : Kind} {e : Expr Float none} {n : Expr Float (some k)}
    (serves : Serves k e n) : n.pieces = e.pieces := by
  induction serves with
  | path p => rfl
  | withDefault p _ ih => rw [pieces, pieces, ih]
  | typed e => rfl

theorem Serves.nodeCount_eq {k : Kind} {e : Expr ν none} {n : Expr ν (some k)}
    (serves : Serves k e n) : n.nodeCount = e.nodeCount := by
  induction serves with
  | path p => rfl
  | withDefault p _ ih => rw [nodeCount, nodeCount, ih]
  | typed e => rfl

/-- A tree can be folded before it is narrowed or after, with the same outcome; for a string or an
array it need not be folded at all. Narrowed it has the text and the nodes that it had. -/
theorem narrow_commutes (e : Expr Float none) :
    (∀ k, e.normalize.narrow k = (e.narrow k).map normalize) ∧
    (e.normalize.narrow .string = e.narrow .string ∧
      e.normalize.narrow .array = e.narrow .array) ∧
    ∀ k n, e.narrow k = .ok n →
      (typed n).text = e.text ∧ (typed n).nodeCount = e.nodeCount := by
  refine ⟨fun k => narrow_normalize k e, ⟨?_, ?_⟩, fun k n narrowed => ?_⟩
  · exact narrow_normalize_of_noOperator (.inl rfl) e
  · exact narrow_normalize_of_noOperator (.inr rfl) e
  · have serves := narrow_eq_ok_iff.1 narrowed
    have samePieces : (typed n).pieces = e.pieces := serves.pieces_eq
    refine ⟨?_, serves.nodeCount_eq⟩
    rw [text, samePieces, text]

/-- A chain of two paths in front of a sum, as it stands and folded. -/
theorem narrow_commutes_default :
    let a : Path := ⟨[.field "a"]⟩
    let b : Path := ⟨[.field "b"]⟩
    let sum : Expr Float (some .number) := .chain .sum [.number 1, .path b, .number 2]
    let e : Expr Float none := .withDefault a (.withDefault b (.typed sum))
    let n : Expr Float (some .number) := .withDefault a (.withDefault b sum)
    e.narrow .number = .ok n ∧ (typed n).text = e.text ∧ (typed n).nodeCount = e.nodeCount ∧
      e.normalize.narrow .number = .ok n.normalize ∧
      e.normalize.narrow .string = .error .number := by
  intro a b sum e n
  have narrowed : e.narrow .number = .ok n := rfl
  obtain ⟨folded, ⟨noString, -⟩, shown⟩ := narrow_commutes e
  obtain ⟨sameText, sameNodes⟩ := shown .number n narrowed
  refine ⟨narrowed, sameText, sameNodes, ?_, ?_⟩
  · rw [folded, narrowed]
    rfl
  · rw [noString]
    rfl

end PathExpr.Expr
