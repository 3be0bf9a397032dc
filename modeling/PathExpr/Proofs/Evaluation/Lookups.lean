import Mathlib.Data.List.Flatten
import PathExpr.Expr.Evaluate
import PathExpr.Proofs.Induction

set_option autoImplicit false

namespace PathExpr

variable {ν : Type}

/-- The second context answers these lookups as the first one does. -/
def Context.AgreesOn (ctx ctx' : Context ν) (lookups : List Lookup) : Prop :=
  ∀ l ∈ lookups, ctx'.lookup l.family l.path = ctx.lookup l.family l.path

namespace Context.AgreesOn

variable {α β : Type} {ctx ctx' : Context ν}

theorem find_eq {family : Option Kind} {p : Path} (agrees : AgreesOn ctx ctx' [⟨family, p⟩]) :
    ctx'.find family p = ctx.find family p := by
  have same : ctx'.lookup family p = ctx.lookup family p :=
    agrees ⟨family, p⟩ List.mem_cons_self
  rw [find, find, same]

theorem map_eq {f : α → β} {t t' : Traced α} (agrees : AgreesOn ctx ctx' (t.map f).lookups)
    (same : AgreesOn ctx ctx' t.lookups → t' = t) : t'.map f = t.map f := by
  rw [same agrees]

theorem bind_eq {first first' : Traced α} {next next' : α → Traced β}
    (agrees : AgreesOn ctx ctx' (first.bind next).lookups)
    (same : AgreesOn ctx ctx' first.lookups → first' = first)
    (further : AgreesOn ctx ctx' (next first.value).lookups →
      next' first.value = next first.value) : first'.bind next' = first.bind next := by
  have inBoth := List.forall_mem_append.1 agrees
  unfold Traced.bind
  rw [same inBoth.1, further inBoth.2]

end Context.AgreesOn

namespace Expr

def lookup? {k : Option Kind} : Expr ν k → Option Lookup
  | .path p => some ⟨k, p⟩
  | .withDefault p _ => some ⟨k, p⟩
  | _ => none

/-- The lookups that the paths in a tree stand for, from left to right, with a path before its
default. -/
def occurrences {k : Option Kind} (e : Expr ν k) : List Lookup :=
  e.subtrees.filterMap fun s => s.2.lookup?

theorem occurrences_chain (op : Associative) (operands : List (Expr ν (some .number))) :
    (chain op operands).occurrences = operands.flatMap occurrences := by
  unfold occurrences
  rw [subtrees, inside_chain, List.filterMap_cons_none rfl, List.filterMap_flatMap]

theorem occurrences_logic (op : Logical) (operands : List (Expr ν (some .boolean))) :
    (logic op operands).occurrences = operands.flatMap occurrences := by
  unfold occurrences
  rw [subtrees, inside_logic, List.filterMap_cons_none rfl, List.filterMap_flatMap]

variable [Arithmetic ν] {ctx ctx' : Context ν}

theorem lookups_evaluateLogic_sublist {op : Logical} {operands : List (Expr ν (some .boolean))}
    (each : ∀ e ∈ operands, (evaluate ctx e).lookups.Sublist e.occurrences) :
    (evaluateLogic ctx op operands).lookups.Sublist (operands.flatMap occurrences) := by
  induction operands with
  | nil => exact List.nil_sublist _
  | cons first rest ih =>
      rw [evaluateLogic, List.flatMap_cons, Traced.lookups_bind]
      apply (each first List.mem_cons_self).append
      split
      · exact List.nil_sublist _
      · exact ih fun e inRest => each e (List.mem_cons_of_mem first inRest)

theorem lookups_sublist_occurrences {k : Option Kind} (e : Expr ν k) :
    (evaluate ctx e).lookups.Sublist e.occurrences := by
  induction e using induct with
  | path p =>
      rw [evaluate]
      exact List.Sublist.refl _
  | withDefault p d ih =>
      rw [evaluate, Traced.lookups_bind]
      apply List.Sublist.append (List.Sublist.refl [(⟨_, p⟩ : Lookup)])
      split
      · exact List.nil_sublist _
      · exact ih
  | typed e ih | negate e ih | length e ih | not e ih =>
      rw [evaluate]
      exact ih
  | number | boolean | string =>
      rw [evaluate]
      exact List.nil_sublist _
  | subtract l r ihLeft ihRight | divide l r ihLeft ihRight | compare op l r ihLeft ihRight
  | equal l r ihLeft ihRight =>
      rw [evaluate, occurrences, subtrees, List.filterMap_cons_none rfl, inside,
        List.filterMap_append]
      exact ihLeft.append ihRight
  | chain op operands ih =>
      rw [evaluate_chain, occurrences_chain]
      exact List.Sublist.flatMap_right operands ih
  | logic op operands ih =>
      rw [evaluate, occurrences_logic]
      exact lookups_evaluateLogic_sublist ih

/-- The second tree is the first one with other trees where evaluation does not get: behind an
operand that decides a logical operator, and as the default of a path that is found. -/
inductive ReplacesUnread (ctx : Context ν) :
    {k : Option Kind} → Expr ν k → Expr ν k → Prop
  | operands {op : Logical} {decisive : Expr ν (some .boolean)}
      (before after after' : List (Expr ν (some .boolean)))
      (decides : (evaluate ctx decisive).value = op.absorbing) :
      ReplacesUnread ctx (.logic op (before ++ decisive :: after))
        (.logic op (before ++ decisive :: after'))
  | default {k : Option Kind} {p : Path} (d d' : Expr ν k)
      (found : (ctx.lookup k p).isSome = true) :
      ReplacesUnread ctx (.withDefault p d) (.withDefault p d')
  | refl {k : Option Kind} (e : Expr ν k) : ReplacesUnread ctx e e
  | trans {k : Option Kind} {e e' e'' : Expr ν k} (first : ReplacesUnread ctx e e')
      (second : ReplacesUnread ctx e' e'') : ReplacesUnread ctx e e''
  | withDefault {k : Option Kind} {p : Path} {d d' : Expr ν k} (inside : ReplacesUnread ctx d d') :
      ReplacesUnread ctx (.withDefault p d) (.withDefault p d')
  | typed {k : Kind} {e e' : Expr ν (some k)} (inside : ReplacesUnread ctx e e') :
      ReplacesUnread ctx (.typed e) (.typed e')
  | negate {e e' : Expr ν (some .number)} (inside : ReplacesUnread ctx e e') :
      ReplacesUnread ctx (.negate e) (.negate e')
  | chain {op : Associative} (before after : List (Expr ν (some .number)))
      {e e' : Expr ν (some .number)} (inside : ReplacesUnread ctx e e') :
      ReplacesUnread ctx (.chain op (before ++ e :: after)) (.chain op (before ++ e' :: after))
  | subtract {l l' r r' : Expr ν (some .number)} (left : ReplacesUnread ctx l l')
      (right : ReplacesUnread ctx r r') : ReplacesUnread ctx (.subtract l r) (.subtract l' r')
  | divide {l l' r r' : Expr ν (some .number)} (left : ReplacesUnread ctx l l')
      (right : ReplacesUnread ctx r r') : ReplacesUnread ctx (.divide l r) (.divide l' r')
  | length {a a' : Expr ν (some .array)} (inside : ReplacesUnread ctx a a') :
      ReplacesUnread ctx (.length a) (.length a')
  | not {e e' : Expr ν (some .boolean)} (inside : ReplacesUnread ctx e e') :
      ReplacesUnread ctx (.not e) (.not e')
  | compare {op : Comparison} {l l' r r' : Expr ν (some .number)}
      (left : ReplacesUnread ctx l l') (right : ReplacesUnread ctx r r') :
      ReplacesUnread ctx (.compare op l r) (.compare op l' r')
  | equal {l l' r r' : Expr ν none} (left : ReplacesUnread ctx l l')
      (right : ReplacesUnread ctx r r') : ReplacesUnread ctx (.equal l r) (.equal l' r')
  | logic {op : Logical} (before after : List (Expr ν (some .boolean)))
      {e e' : Expr ν (some .boolean)} (inside : ReplacesUnread ctx e e') :
      ReplacesUnread ctx (.logic op (before ++ e :: after)) (.logic op (before ++ e' :: after))

theorem evaluateLogic_decided {op : Logical} {decisive : Expr ν (some .boolean)}
    (decides : (evaluate ctx decisive).value = op.absorbing)
    (after after' : List (Expr ν (some .boolean))) :
    evaluateLogic ctx op (decisive :: after') = evaluateLogic ctx op (decisive :: after) := by
  simp only [evaluateLogic, Traced.bind, decides, if_true]

theorem evaluate_eq_of_replacesUnread {k : Option Kind} {e e' : Expr ν k}
    (replaced : ReplacesUnread ctx e e') : evaluate ctx e' = evaluate ctx e := by
  induction replaced with
  | operands before after after' decides =>
      rw [evaluate, evaluate, evaluateLogic_append, evaluateLogic_append,
        evaluateLogic_decided decides after after']
  | default d d' found =>
      obtain ⟨x, isFound⟩ := Option.isSome_iff_exists.1 found
      rw [evaluate, evaluate]
      unfold Context.find Traced.bind
      rw [isFound]
  | refl => rfl
  | trans _ _ ihFirst ihSecond => rw [ihSecond, ihFirst]
  | withDefault _ ih | typed _ ih | negate _ ih | length _ ih | not _ ih =>
      rw [evaluate, evaluate, ih]
  | subtract _ _ ihLeft ihRight | divide _ _ ihLeft ihRight | compare _ _ ihLeft ihRight
  | equal _ _ ihLeft ihRight => rw [evaluate, evaluate, ihLeft, ihRight]
  | chain before after _ ih =>
      simp only [evaluate_chain, values, allLookups, List.map_append, List.map_cons,
        List.flatMap_append, List.flatMap_cons, ih]
  | logic before after _ ih =>
      rw [evaluate, evaluate, evaluateLogic_append, evaluateLogic_append, evaluateLogic,
        evaluateLogic, ih]

theorem evaluateChain_eq_of_agreesOn {op : Associative} {acc : ν}
    {operands : List (Expr ν (some .number))}
    (each : ∀ e ∈ operands, ctx.AgreesOn ctx' (evaluate ctx e).lookups →
      evaluate ctx' e = evaluate ctx e)
    (agrees : ctx.AgreesOn ctx' (evaluateChain ctx op acc operands).lookups) :
    evaluateChain ctx' op acc operands = evaluateChain ctx op acc operands := by
  induction operands generalizing acc with
  | nil => rfl
  | cons first rest ih =>
      rw [evaluateChain] at agrees
      rw [evaluateChain, evaluateChain]
      apply agrees.bind_eq (each first List.mem_cons_self)
      exact ih fun e inRest => each e (List.mem_cons_of_mem first inRest)

theorem evaluateLogic_eq_of_agreesOn {op : Logical} {operands : List (Expr ν (some .boolean))}
    (each : ∀ e ∈ operands, ctx.AgreesOn ctx' (evaluate ctx e).lookups →
      evaluate ctx' e = evaluate ctx e)
    (agrees : ctx.AgreesOn ctx' (evaluateLogic ctx op operands).lookups) :
    evaluateLogic ctx' op operands = evaluateLogic ctx op operands := by
  induction operands with
  | nil => rfl
  | cons first rest ih =>
      rw [evaluateLogic] at agrees
      rw [evaluateLogic, evaluateLogic]
      apply agrees.bind_eq (each first List.mem_cons_self)
      intro agreesBehind
      split
      · rfl
      · rename_i undecided
        rw [if_neg undecided] at agreesBehind
        exact ih (fun e inRest => each e (List.mem_cons_of_mem first inRest)) agreesBehind

theorem evaluate_eq_of_agreesOn {k : Option Kind} {e : Expr ν k}
    (agrees : ctx.AgreesOn ctx' (evaluate ctx e).lookups) :
    evaluate ctx' e = evaluate ctx e := by
  induction e using induct with
  | path p =>
      rw [evaluate] at agrees
      rw [evaluate, evaluate, agrees.find_eq]
  | withDefault p d ih =>
      rw [evaluate] at agrees
      rw [evaluate, evaluate]
      apply agrees.bind_eq Context.AgreesOn.find_eq
      intro agreesBehind
      split
      · rfl
      · rename_i missing
        rw [missing] at agreesBehind
        exact ih agreesBehind
  | typed e ih | negate e ih | length e ih | not e ih =>
      rw [evaluate] at agrees
      rw [evaluate, evaluate]
      exact agrees.map_eq ih
  | number | boolean | string => rw [evaluate, evaluate]
  | subtract l r ihLeft ihRight | divide l r ihLeft ihRight | compare op l r ihLeft ihRight
  | equal l r ihLeft ihRight =>
      rw [evaluate] at agrees
      rw [evaluate, evaluate]
      apply agrees.bind_eq ihLeft
      exact fun agreesBehind => agreesBehind.map_eq ihRight
  | chain op operands ih =>
      rw [evaluate] at agrees
      rw [evaluate, evaluate]
      exact evaluateChain_eq_of_agreesOn ih agrees
  | logic op operands ih =>
      rw [evaluate] at agrees
      rw [evaluate, evaluate]
      exact evaluateLogic_eq_of_agreesOn ih agrees

/-- Evaluation asks for each path at most once, from left to right and only where it gets to, and
nothing but the answers matters to it. -/
theorem evaluate_reads_as_needed {k : Option Kind} (ctx : Context ν) (e : Expr ν k) :
    (evaluate ctx e).lookups.Sublist e.occurrences ∧
      (∀ e', ReplacesUnread ctx e e' → evaluate ctx e' = evaluate ctx e) ∧
      ∀ ctx', ctx.AgreesOn ctx' (evaluate ctx e).lookups → evaluate ctx' e = evaluate ctx e :=
  ⟨lookups_sublist_occurrences e, fun _ => evaluate_eq_of_replacesUnread,
    fun _ => evaluate_eq_of_agreesOn⟩

/-- The first operand is found and decides, so neither its default nor the other path is read. -/
theorem evaluate_reads_as_needed_decided :
    let a : Path := ⟨[.field "a"]⟩
    let b : Path := ⟨[.field "b"]⟩
    let ctx : Context Float := .ofValue (.object [("a", .boolean false)])
    let ctx' : Context Float := .ofValue (.object [("a", .boolean false), ("b", .boolean true)])
    let first : Expr Float (some .boolean) := .withDefault a (.path b)
    let e : Expr Float (some .boolean) := .logic .and [first, .path b]
    let e' : Expr Float (some .boolean) := .logic .and [.withDefault a (.boolean true)]
    evaluate ctx e = ⟨false, [⟨some .boolean, a⟩]⟩ ∧
      (evaluate ctx e).lookups.Sublist
        [⟨some .boolean, a⟩, ⟨some .boolean, b⟩, ⟨some .boolean, b⟩] ∧
      evaluate ctx e' = evaluate ctx e ∧ evaluate ctx' e = evaluate ctx e := by
  intro a b ctx ctx' first e e'
  have result : evaluate ctx e = ⟨false, [⟨some .boolean, a⟩]⟩ := by decide +kernel
  have decides : (evaluate ctx first).value = Logical.and.absorbing := by decide +kernel
  have replaced : ReplacesUnread ctx e e' := by
    apply ReplacesUnread.trans (.operands [] _ [] decides)
    exact .logic [] [] (.default _ _ rfl)
  have agrees : ctx.AgreesOn ctx' (evaluate ctx e).lookups := by
    rw [result]
    exact List.forall_mem_singleton.2 (by rfl)
  have needed := evaluate_reads_as_needed ctx e
  exact ⟨result, needed.1, needed.2.1 e' replaced, needed.2.2 ctx' agrees⟩

end Expr

end PathExpr
