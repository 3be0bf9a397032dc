import PathExpr.Context
import PathExpr.Expr.Basic

set_option autoImplicit false

namespace PathExpr

/-- What an expression evaluates to. Without a known kind there may be nothing. -/
abbrev Result (ν : Type) : Option Kind → Type
  | none => Option (Value ν)
  | some k => Payload ν k

namespace Result

variable {ν : Type} [Arithmetic ν]

def missing : (k : Option Kind) → Result ν k
  | none => none
  | some .number => Arithmetic.zero
  | some .boolean => false
  | some .string => ""
  | some .array => []

def ofFound : {k : Option Kind} → Found ν k → Result ν k
  | none, v => some v
  | some _, x => x

def ofFound? {k : Option Kind} : Option (Found ν k) → Result ν k
  | none => missing k
  | some x => ofFound x

end Result

/-- Whether two results are equal; nothing is equal to nothing. -/
def Value.resultsEqual {ν : Type} [Arithmetic ν] : Option (Value ν) → Option (Value ν) → Bool
  | some a, some b => a.scalarEqual b
  | _, _ => false

namespace Expr

variable {ν : Type} [Arithmetic ν]

mutual

/-- Evaluation never fails: a missing path of a known kind gives the zero value of that kind, and a
missing path of no known kind gives nothing. Lookups are made from left to right and only as far as
they are needed. -/
def evaluate (ctx : Context ν) {k : Option Kind} : Expr ν k → Traced (Result ν k)
  | .path p => (ctx.find k p).map Result.ofFound?
  | .withDefault p d =>
      (ctx.find k p).bind fun found =>
        match found with
        | some x => .pure (Result.ofFound x)
        | none => evaluate ctx d
  | .typed (k := k) e => (evaluate ctx e).map fun x => some (Value.ofPayload k x)
  | .number x => .pure x
  | .negate e => (evaluate ctx e).map Arithmetic.neg
  | .chain op operands => evaluateChain ctx op op.identity operands
  | .subtract l r =>
      (evaluate ctx l).bind fun a => (evaluate ctx r).map fun b => Arithmetic.sub a b
  | .divide l r =>
      (evaluate ctx l).bind fun a => (evaluate ctx r).map fun b => Arithmetic.div a b
  | .length a => (evaluate ctx a).map fun items => Arithmetic.ofCount items.length
  | .boolean b => .pure b
  | .not e => (evaluate ctx e).map fun b => !b
  | .compare op l r =>
      (evaluate ctx l).bind fun a => (evaluate ctx r).map fun b => Arithmetic.compare op a b
  | .equal l r =>
      (evaluate ctx l).bind fun a => (evaluate ctx r).map fun b => Value.resultsEqual a b
  | .logic op operands => evaluateLogic ctx op operands
  | .string s => .pure s

/-- Applies the operator to what it has so far and each operand in turn. -/
def evaluateChain (ctx : Context ν) (op : Associative) (acc : ν) :
    List (Expr ν (some .number)) → Traced ν
  | [] => .pure acc
  | e :: rest => (evaluate ctx e).bind fun x => evaluateChain ctx op (op.apply acc x) rest

/-- Stops at the first operand that decides the result. -/
def evaluateLogic (ctx : Context ν) (op : Logical) : List (Expr ν (some .boolean)) → Traced Bool
  | [] => .pure op.identity
  | e :: rest =>
      (evaluate ctx e).bind fun b =>
        if b = op.absorbing then .pure op.absorbing else evaluateLogic ctx op rest

end

variable {ctx : Context ν}

def values (ctx : Context ν) (operands : List (Expr ν (some .number))) : List ν :=
  operands.map fun e => (evaluate ctx e).value

def allLookups (ctx : Context ν) (operands : List (Expr ν (some .number))) : List Lookup :=
  operands.flatMap fun e => (evaluate ctx e).lookups

theorem evaluateChain_eq (op : Associative) (acc : ν) (operands : List (Expr ν (some .number))) :
    evaluateChain ctx op acc operands =
      ⟨(values ctx operands).foldl op.apply acc, allLookups ctx operands⟩ := by
  induction operands generalizing acc with
  | nil =>
      simp only [evaluateChain]
      rfl
  | cons first rest ih =>
      rw [evaluateChain]
      simp only [Traced.bind, ih, values, allLookups, List.map_cons, List.foldl_cons,
        List.flatMap_cons]

theorem evaluate_chain (op : Associative) (operands : List (Expr ν (some .number))) :
    evaluate ctx (.chain op operands) =
      ⟨(values ctx operands).foldl op.apply op.identity, allLookups ctx operands⟩ := by
  rw [evaluate, evaluateChain_eq]

theorem evaluateLogic_append (op : Logical) (first second : List (Expr ν (some .boolean))) :
    evaluateLogic ctx op (first ++ second) =
      (evaluateLogic ctx op first).bind fun b =>
        if b = op.absorbing then .pure op.absorbing else evaluateLogic ctx op second := by
  induction first with
  | nil =>
      rw [List.nil_append, evaluateLogic]
      simp only [Traced.bind, Traced.pure, op.absorbing_ne_identity.symm, if_false,
        List.nil_append]
  | cons e rest ih =>
      rw [List.cons_append, evaluateLogic, evaluateLogic, ih]
      by_cases decides : (evaluate ctx e).value = op.absorbing
      · simp only [Traced.bind, Traced.pure, decides, if_true, List.append_nil]
      · simp only [Traced.bind, decides, if_false, List.append_assoc]

end Expr

end PathExpr
