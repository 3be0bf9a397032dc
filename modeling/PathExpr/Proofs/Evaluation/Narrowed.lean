import PathExpr.Expr.Evaluate
import PathExpr.Proofs.Grammar.Basic
import PathExpr.Proofs.Induction

set_option autoImplicit false

namespace PathExpr.Expr

variable {ν : Type}

/-- The expression at the end of a chain of defaults. -/
def lastDefault {k : Option Kind} : Expr ν k → Expr ν k
  | .withDefault _ d => d.lastDefault
  | e => e

/-- The paths of a chain of defaults. -/
def defaultPaths {k : Option Kind} : Expr ν k → List Path
  | .path p => [p]
  | .withDefault p d => p :: d.defaultPaths
  | _ => []

/-- An expression is narrowed if it ends with a path of no kind or is of the kind, and otherwise it
is told to be of another kind. -/
theorem narrow_cases (k : Kind) (e : Expr ν none) :
    (∃ n, e.narrow k = .ok n ∧
      ((∃ p, e.lastDefault = .path p) ∨ e.lastDefault.kind? = some k)) ∨
    ∃ found, e.narrow k = .error found ∧ e.lastDefault.kind? = some found ∧ found ≠ k := by
  induction e using inductUntyped with
  | path p => exact .inl ⟨.path p, rfl, .inl ⟨p, rfl⟩⟩
  | withDefault p d ih =>
      simp only [narrow, lastDefault]
      rcases ih with ⟨n, narrowed, ends⟩ | ⟨found, failed, ends⟩
      · rw [narrowed]
        exact .inl ⟨.withDefault p n, rfl, ends⟩
      · rw [failed]
        exact .inr ⟨found, rfl, ends⟩
  | @typed j e =>
      by_cases same : j = k
      · subst same
        exact .inl ⟨e, narrow_typed j e, .inr rfl⟩
      · refine .inr ⟨j, ?_, rfl, same⟩
        simp only [narrow, dif_neg same]

/-- What ends with something of a kind ends neither with a path of no kind nor with another kind. -/
theorem not_ends {k found : Kind} {e : Expr ν none} (isKind : e.lastDefault.kind? = some found)
    (different : found ≠ k) :
    ¬((∃ p, e.lastDefault = .path p) ∨ e.lastDefault.kind? = some k) := by
  rintro (⟨p, isPath⟩ | isKind')
  · rw [isPath] at isKind
    cases isKind
  · rw [isKind'] at isKind
    cases isKind
    exact different rfl

theorem exists_narrow_iff {k : Kind} {e : Expr ν none} :
    (∃ n, e.narrow k = .ok n) ↔
      (∃ p, e.lastDefault = .path p) ∨ e.lastDefault.kind? = some k := by
  rcases narrow_cases k e with ⟨n, narrowed, ends⟩ | ⟨found, failed, isKind, different⟩
  · exact ⟨fun _ => ends, fun _ => ⟨n, narrowed⟩⟩
  · rw [failed]
    constructor
    · rintro ⟨n, isOk⟩
      cases isOk
    · exact fun ends => absurd ends (not_ends isKind different)

/-- What an expression is told to be is the kind that it has. -/
theorem narrow_eq_error_iff {k found : Kind} {e : Expr ν none} :
    e.narrow k = .error found ↔ e.lastDefault.kind? = some found ∧ found ≠ k := by
  rcases narrow_cases k e with ⟨n, narrowed, ends⟩ | ⟨found', failed, isKind, different⟩
  · rw [narrowed]
    constructor
    · intro isError
      cases isError
    · rintro ⟨isKind, different⟩
      exact absurd ends (not_ends isKind different)
  · rw [failed, isKind]
    constructor
    · intro isError
      cases isError
      exact ⟨rfl, different⟩
    · rintro ⟨isKind, -⟩
      cases isKind
      rfl

section

variable {get? : Path → Option (Value ν)} {p : Path} {k : Kind}

theorem lookup_narrowed {v : Value ν} {x : Payload ν k}
    (found : (Context.narrowed get?).lookup none p = some v) (isKind : v.payload? k = some x) :
    (Context.narrowed get?).lookup (some k) p = some x := by
  have atPath : get? p = some v := found
  show (get? p).bind (Value.payload? k) = some x
  rw [atPath, Option.bind_some, isKind]

theorem lookup_narrowed_of_missing (missing : (Context.narrowed get?).lookup none p = none) :
    (Context.narrowed get?).lookup (some k) p = none := by
  have atPath : get? p = none := missing
  show (get? p).bind (Value.payload? k) = none
  rw [atPath, Option.bind_none]

end

section

variable [Arithmetic ν]

theorem value_path {k : Option Kind} (ctx : Context ν) (p : Path) :
    (evaluate ctx (.path p : Expr ν k)).value = Result.ofFound? (ctx.lookup k p) := by
  rw [evaluate]
  rfl

theorem value_withDefault_of_found {k : Option Kind} {ctx : Context ν} {p : Path} {x : Found ν k}
    (found : ctx.lookup k p = some x) (d : Expr ν k) :
    (evaluate ctx (.withDefault p d)).value = Result.ofFound x := by
  rw [evaluate, Traced.value_bind, Context.find, found]
  rfl

theorem value_withDefault_of_missing {k : Option Kind} {ctx : Context ν} {p : Path}
    (missing : ctx.lookup k p = none) (d : Expr ν k) :
    (evaluate ctx (.withDefault p d)).value = (evaluate ctx d).value := by
  rw [evaluate, Traced.value_bind, Context.find, missing]

/-- Nothing comes of a chain that ends with a path, if none of its paths is found. -/
theorem evaluate_eq_none_iff {ctx : Context ν} {e : Expr ν none} :
    (evaluate ctx e).value = none ↔
      (∃ p, e.lastDefault = .path p) ∧ ∀ p ∈ e.defaultPaths, ctx.lookup none p = none := by
  induction e using inductUntyped with
  | path p =>
      rw [value_path, defaultPaths, List.forall_mem_singleton]
      cases ctx.lookup none p with
      | none => exact ⟨fun _ => ⟨⟨p, rfl⟩, rfl⟩, fun _ => rfl⟩
      | some v => exact ⟨nofun, fun missing => nomatch missing.2⟩
  | withDefault p d ih =>
      rw [defaultPaths, List.forall_mem_cons, lastDefault]
      cases atPath : ctx.lookup none p with
      | none =>
          rw [value_withDefault_of_missing atPath, ih]
          exact ⟨fun ⟨ends, missing⟩ => ⟨ends, rfl, missing⟩,
            fun ⟨ends, _, missing⟩ => ⟨ends, missing⟩⟩
      | some v =>
          rw [value_withDefault_of_found atPath]
          exact ⟨nofun, fun missing => nomatch missing.2.1⟩
  | typed e =>
      rw [evaluate]
      constructor
      · intro nothing
        cases nothing
      · rintro ⟨⟨p, isPath⟩, -⟩
        cases isPath

variable {k : Kind} {e : Expr ν none} {n : Expr ν (some k)} {get? : Path → Option (Value ν)}

/-- A value of the kind is also found by lookups of the kind. -/
theorem Serves.value_eq (serves : Serves k e n) {v : Value ν} {x : Payload ν k}
    (found : (evaluate (.narrowed get?) e).value = some v) (isKind : v.payload? k = some x) :
    (evaluate (.narrowed get?) n).value = x := by
  induction serves with
  | path p =>
      rw [value_path] at found ⊢
      cases atPath : (Context.narrowed get?).lookup none p with
      | none =>
          rw [atPath] at found
          cases found
      | some v' =>
          rw [atPath] at found
          cases found
          rw [lookup_narrowed atPath isKind]
          rfl
  | withDefault p _ ih =>
      cases atPath : (Context.narrowed get?).lookup none p with
      | none =>
          rw [value_withDefault_of_missing atPath] at found
          rw [value_withDefault_of_missing (lookup_narrowed_of_missing atPath)]
          exact ih found
      | some v' =>
          rw [value_withDefault_of_found atPath] at found
          cases found
          rw [value_withDefault_of_found (lookup_narrowed atPath isKind)]
          rfl
  | typed e =>
      rw [evaluate, Traced.value_map] at found
      cases found
      rw [Value.payload?_ofPayload] at isKind
      exact Option.some.inj isKind

theorem Serves.value_eq_missing (serves : Serves k e n)
    (nothing : (evaluate (.narrowed get?) e).value = none) :
    (evaluate (.narrowed get?) n).value = Result.missing (some k) := by
  induction serves with
  | path p =>
      obtain ⟨-, missing⟩ := evaluate_eq_none_iff.1 nothing
      have absent := missing p List.mem_cons_self
      rw [value_path, lookup_narrowed_of_missing absent]
      rfl
  | withDefault p _ ih =>
      obtain ⟨ends, missing⟩ := evaluate_eq_none_iff.1 nothing
      obtain ⟨absent, further⟩ := List.forall_mem_cons.1 missing
      rw [value_withDefault_of_missing (lookup_narrowed_of_missing absent)]
      exact ih (evaluate_eq_none_iff.2 ⟨ends, further⟩)
  | typed e =>
      rw [evaluate] at nothing
      cases nothing

end

/-- An expression can be given a kind exactly if the chain of its defaults ends with a path without
a kind or with something of the kind, and otherwise it is told to be of the kind it has. Narrowed,
it evaluates to what the expression holds if that is of the kind, and to what a missing path does if
the expression comes to nothing, which it does if all paths of the chain are missing and nothing
else stands at its end. -/
theorem narrow_agrees [Arithmetic ν] (k : Kind) (e : Expr ν none) :
    ((∃ n, e.narrow k = .ok n) ↔
      (∃ p, e.lastDefault = .path p) ∨ e.lastDefault.kind? = some k) ∧
    (∀ found, e.narrow k = .error found ↔ e.lastDefault.kind? = some found ∧ found ≠ k) ∧
    (∀ n, e.narrow k = .ok n → ∀ get? : Path → Option (Value ν),
      (∀ v x, (evaluate (.narrowed get?) e).value = some v → v.payload? k = some x →
        (evaluate (.narrowed get?) n).value = x) ∧
      ((evaluate (.narrowed get?) e).value = none →
        (evaluate (.narrowed get?) n).value = Result.missing (some k))) ∧
    ∀ ctx : Context ν, (evaluate ctx e).value = none ↔
      (∃ p, e.lastDefault = .path p) ∧ ∀ p ∈ e.defaultPaths, ctx.lookup none p = none := by
  refine ⟨exists_narrow_iff, fun found => narrow_eq_error_iff, fun n narrowed get? => ?_,
    fun ctx => evaluate_eq_none_iff⟩
  have serves := narrow_eq_ok_iff.1 narrowed
  exact ⟨fun v x found isKind => serves.value_eq found isKind, serves.value_eq_missing⟩

/-- A default of no kind: with and without a kind the expression comes to the number behind the
missing path, and to zero and to nothing where that is missing too. -/
theorem narrow_agrees_default :
    let a : Path := ⟨[.field "a"]⟩
    let b : Path := ⟨[.field "b"]⟩
    let e : Expr Float none := .withDefault a (.path b)
    let n : Expr Float (some .number) := .withDefault a (.path b)
    let found : Context Float := .narrowed (Value.object [("b", .number 3)]).get?
    let nothing : Context Float := .narrowed (Value.object []).get?
    e.narrow .number = .ok n ∧
      ((evaluate found e).value = some (.number 3) ∧ (evaluate found n).value = (3 : Float)) ∧
      (evaluate nothing e).value = none ∧ (evaluate nothing n).value = (0 : Float) := by
  intro a b e n found nothing
  have narrowed : e.narrow .number = .ok n := rfl
  have atB : (evaluate found e).value = some (.number 3) := rfl
  have nowhere : (evaluate nothing e).value = none := rfl
  have agrees := (narrow_agrees .number e).2.2.1 n narrowed
  exact ⟨narrowed, ⟨atB, (agrees _).1 _ 3 atB rfl⟩, nowhere, (agrees _).2 nowhere⟩

end PathExpr.Expr
