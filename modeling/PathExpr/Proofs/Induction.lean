import PathExpr.Expr.Basic

set_option autoImplicit false

namespace PathExpr.Expr

variable {ν : Type}

@[elab_as_elim]
theorem induct {motive : ∀ {k : Option Kind}, Expr ν k → Prop}
    (path : ∀ {k : Option Kind} (p : Path), motive (Expr.path p : Expr ν k))
    (withDefault : ∀ {k : Option Kind} (p : Path) (d : Expr ν k),
      motive d → motive (.withDefault p d))
    (typed : ∀ {k : Kind} (e : Expr ν (some k)), motive e → motive (.typed e))
    (number : ∀ x : ν, motive (.number x))
    (negate : ∀ e : Expr ν (some .number), motive e → motive (.negate e))
    (chain : ∀ (op : Associative) (operands : List (Expr ν (some .number))),
      (∀ e ∈ operands, motive e) → motive (.chain op operands))
    (subtract : ∀ l r : Expr ν (some .number), motive l → motive r → motive (.subtract l r))
    (divide : ∀ l r : Expr ν (some .number), motive l → motive r → motive (.divide l r))
    (length : ∀ a : Expr ν (some .array), motive a → motive (.length a))
    (boolean : ∀ b : Bool, motive (.boolean b))
    (not : ∀ e : Expr ν (some .boolean), motive e → motive (.not e))
    (compare : ∀ (op : Comparison) (l r : Expr ν (some .number)),
      motive l → motive r → motive (.compare op l r))
    (equal : ∀ l r : Expr ν none, motive l → motive r → motive (.equal l r))
    (logic : ∀ (op : Logical) (operands : List (Expr ν (some .boolean))),
      (∀ e ∈ operands, motive e) → motive (.logic op operands))
    (string : ∀ s : String, motive (.string s))
    {k : Option Kind} (e : Expr ν k) : motive e := by
  refine @Expr.rec ν (fun _ e => motive e) (fun operands => ∀ e ∈ operands, motive e)
    (fun operands => ∀ e ∈ operands, motive e) path withDefault typed number negate chain subtract
    divide length boolean not compare equal logic string ?_ ?_ ?_ ?_ k e
  · intro e inNone
    cases inNone
  · intro first rest ihFirst ihRest
    exact List.forall_mem_cons.mpr ⟨ihFirst, ihRest⟩
  · intro e inNone
    cases inNone
  · intro first rest ihFirst ihRest
    exact List.forall_mem_cons.mpr ⟨ihFirst, ihRest⟩

/-- Induction on the trees that evaluate to a number; no tree of another kind is an operand of one
but the array that is counted. -/
@[elab_as_elim]
theorem inductNumber {motive : Expr ν (some .number) → Prop}
    (path : ∀ p : Path, motive (.path p))
    (withDefault : ∀ (p : Path) (d : Expr ν (some .number)), motive d → motive (.withDefault p d))
    (number : ∀ x : ν, motive (.number x))
    (negate : ∀ e : Expr ν (some .number), motive e → motive (.negate e))
    (chain : ∀ (op : Associative) (operands : List (Expr ν (some .number))),
      (∀ e ∈ operands, motive e) → motive (.chain op operands))
    (subtract : ∀ l r : Expr ν (some .number), motive l → motive r → motive (.subtract l r))
    (divide : ∀ l r : Expr ν (some .number), motive l → motive r → motive (.divide l r))
    (length : ∀ a : Expr ν (some .array), motive (.length a))
    (e : Expr ν (some .number)) : motive e := by
  have general : ∀ {k : Option Kind} (e : Expr ν k) (isNumber : k = some .number),
      motive (isNumber ▸ e) := by
    intro k e
    induction e using induct with
    | path p =>
        intro isNumber
        cases isNumber
        exact path p
    | withDefault p d ih =>
        intro isNumber
        cases isNumber
        exact withDefault p d (ih rfl)
    | number x => exact fun _ => number x
    | negate e ih => exact fun _ => negate e (ih rfl)
    | chain op operands ih => exact fun _ => chain op operands fun e isOperand => ih e isOperand rfl
    | subtract l r ihLeft ihRight => exact fun _ => subtract l r (ihLeft rfl) (ihRight rfl)
    | divide l r ihLeft ihRight => exact fun _ => divide l r (ihLeft rfl) (ihRight rfl)
    | length a _ => exact fun _ => length a
    | typed | boolean | not | compare | equal | logic | string =>
        intro isNumber
        cases isNumber
  exact general e rfl

/-- Induction on the trees of no known kind: a tree of a known kind stands at the end of a chain of
defaults, and the statement does not look inside it. -/
@[elab_as_elim]
theorem inductUntyped {motive : Expr ν none → Prop} (path : ∀ p : Path, motive (.path p))
    (withDefault : ∀ (p : Path) (d : Expr ν none), motive d → motive (.withDefault p d))
    (typed : ∀ {k : Kind} (e : Expr ν (some k)), motive (.typed e)) (e : Expr ν none) :
    motive e := by
  have general : ∀ {k : Option Kind} (e : Expr ν k) (isNone : k = none),
      motive (isNone ▸ e) := by
    intro k e
    induction e using induct with
    | path p =>
        intro isNone
        cases isNone
        exact path p
    | withDefault p d ih =>
        intro isNone
        cases isNone
        exact withDefault p d (ih rfl)
    | typed e _ => exact fun _ => typed e
    | number | negate | chain | subtract | divide | length | boolean | not | compare | equal
    | logic | string =>
        intro isNone
        cases isNone
  exact general e rfl

mutual

/-- All trees inside a tree, at any depth and whether they are evaluated or not. -/
def inside {k : Option Kind} : Expr ν k → List (Sigma (Expr ν))
  | .path _ => []
  | .withDefault _ d => ⟨_, d⟩ :: d.inside
  | .typed e => ⟨_, e⟩ :: e.inside
  | .number _ => []
  | .negate e => ⟨_, e⟩ :: e.inside
  | .chain _ operands => insideNumbers operands
  | .subtract l r => ⟨_, l⟩ :: l.inside ++ ⟨_, r⟩ :: r.inside
  | .divide l r => ⟨_, l⟩ :: l.inside ++ ⟨_, r⟩ :: r.inside
  | .length a => ⟨_, a⟩ :: a.inside
  | .boolean _ => []
  | .not e => ⟨_, e⟩ :: e.inside
  | .compare _ l r => ⟨_, l⟩ :: l.inside ++ ⟨_, r⟩ :: r.inside
  | .equal l r => ⟨_, l⟩ :: l.inside ++ ⟨_, r⟩ :: r.inside
  | .logic _ operands => insideBooleans operands
  | .string _ => []

def insideNumbers : List (Expr ν (some .number)) → List (Sigma (Expr ν))
  | [] => []
  | e :: rest => ⟨_, e⟩ :: e.inside ++ insideNumbers rest

def insideBooleans : List (Expr ν (some .boolean)) → List (Sigma (Expr ν))
  | [] => []
  | e :: rest => ⟨_, e⟩ :: e.inside ++ insideBooleans rest

end

def subtrees {k : Option Kind} (e : Expr ν k) : List (Sigma (Expr ν)) := ⟨k, e⟩ :: e.inside

theorem self_mem_subtrees {k : Option Kind} (e : Expr ν k) : ⟨k, e⟩ ∈ e.subtrees :=
  List.mem_cons_self

theorem insideNumbers_eq (operands : List (Expr ν (some .number))) :
    insideNumbers operands = operands.flatMap subtrees := by
  induction operands with
  | nil => rfl
  | cons first rest ih =>
      rw [insideNumbers, ih, List.flatMap_cons]
      rfl

theorem insideBooleans_eq (operands : List (Expr ν (some .boolean))) :
    insideBooleans operands = operands.flatMap subtrees := by
  induction operands with
  | nil => rfl
  | cons first rest ih =>
      rw [insideBooleans, ih, List.flatMap_cons]
      rfl

theorem inside_chain (op : Associative) (operands : List (Expr ν (some .number))) :
    (chain op operands).inside = operands.flatMap subtrees := by
  rw [inside, insideNumbers_eq]

theorem inside_logic (op : Logical) (operands : List (Expr ν (some .boolean))) :
    (logic op operands).inside = operands.flatMap subtrees := by
  rw [inside, insideBooleans_eq]

theorem mem_inside_trans {k : Option Kind} {e : Expr ν k} {s t : Sigma (Expr ν)}
    (outer : s ∈ e.inside) (inner : t ∈ s.2.subtrees) : t ∈ e.inside := by
  have below : ∀ {j : Option Kind} {d : Expr ν j}, (s ∈ d.inside → t ∈ d.inside) →
      s ∈ d.subtrees → t ∈ d.subtrees := by
    intro j d ih isSubtree
    rcases List.mem_cons.1 isSubtree with rfl | isInside
    · exact inner
    · exact List.mem_cons_of_mem _ (ih isInside)
  induction e using induct with
  | path | number | boolean | string => cases outer
  | withDefault p d ih => exact below ih outer
  | typed e ih => exact below ih outer
  | negate e ih => exact below ih outer
  | length a ih => exact below ih outer
  | not e ih => exact below ih outer
  | subtract l r ihLeft ihRight | divide l r ihLeft ihRight | compare op l r ihLeft ihRight
  | equal l r ihLeft ihRight =>
      rcases List.mem_append.1 outer with inLeft | inRight
      · exact List.mem_append_left _ (below ihLeft inLeft)
      · exact List.mem_append_right _ (below ihRight inRight)
  | chain op operands ih =>
      rw [inside_chain] at outer ⊢
      obtain ⟨o, isOperand, inOperand⟩ := List.mem_flatMap.1 outer
      exact List.mem_flatMap.2 ⟨o, isOperand, below (ih o isOperand) inOperand⟩
  | logic op operands ih =>
      rw [inside_logic] at outer ⊢
      obtain ⟨o, isOperand, inOperand⟩ := List.mem_flatMap.1 outer
      exact List.mem_flatMap.2 ⟨o, isOperand, below (ih o isOperand) inOperand⟩

theorem mem_subtrees_trans {k : Option Kind} {e : Expr ν k} {s t : Sigma (Expr ν)}
    (outer : s ∈ e.subtrees) (inner : t ∈ s.2.subtrees) : t ∈ e.subtrees := by
  rcases List.mem_cons.1 outer with rfl | isInside
  · exact inner
  · exact List.mem_cons_of_mem _ (mem_inside_trans isInside inner)

theorem operand_mem_subtrees {op : Associative} {operands : List (Expr ν (some .number))}
    {o : Expr ν (some .number)} (isOperand : o ∈ operands) :
    ⟨_, o⟩ ∈ (chain op operands).subtrees := by
  rw [subtrees, inside_chain]
  exact List.mem_cons_of_mem _ (List.mem_flatMap.2 ⟨o, isOperand, self_mem_subtrees o⟩)

def Everywhere (P : ∀ {k : Option Kind}, Expr ν k → Prop) {k : Option Kind} (e : Expr ν k) : Prop :=
  ∀ s ∈ e.subtrees, P s.2

section

variable {P Q : ∀ {k : Option Kind}, Expr ν k → Prop} {k : Option Kind}

theorem Everywhere.self {e : Expr ν k} (everywhere : Everywhere P e) : P e :=
  everywhere ⟨k, e⟩ (self_mem_subtrees e)

theorem Everywhere.mono {e : Expr ν k} (everywhere : Everywhere P e)
    (implies : ∀ {j : Option Kind} (d : Expr ν j), P d → Q d) : Everywhere Q e :=
  fun s isSubtree => implies s.2 (everywhere s isSubtree)

theorem everywhere_of_leaf {e : Expr ν k} (isLeaf : e.inside = []) (here : P e) :
    Everywhere P e := by
  unfold Everywhere subtrees
  rw [isLeaf]
  exact List.forall_mem_singleton.2 here

theorem everywhere_withDefault {p : Path} {d : Expr ν k} :
    Everywhere P (.withDefault p d) ↔ P (.withDefault p d) ∧ Everywhere P d :=
  List.forall_mem_cons

theorem everywhere_typed {j : Kind} {e : Expr ν (some j)} :
    Everywhere P (.typed e) ↔ P (.typed e) ∧ Everywhere P e :=
  List.forall_mem_cons

theorem everywhere_negate {e : Expr ν (some .number)} :
    Everywhere P (.negate e) ↔ P (.negate e) ∧ Everywhere P e :=
  List.forall_mem_cons

theorem everywhere_length {a : Expr ν (some .array)} :
    Everywhere P (.length a) ↔ P (.length a) ∧ Everywhere P a :=
  List.forall_mem_cons

theorem everywhere_not {e : Expr ν (some .boolean)} :
    Everywhere P (.not e) ↔ P (.not e) ∧ Everywhere P e :=
  List.forall_mem_cons

theorem everywhere_subtract {l r : Expr ν (some .number)} :
    Everywhere P (.subtract l r) ↔ P (.subtract l r) ∧ Everywhere P l ∧ Everywhere P r :=
  List.forall_mem_cons.trans (and_congr_right' List.forall_mem_append)

theorem everywhere_divide {l r : Expr ν (some .number)} :
    Everywhere P (.divide l r) ↔ P (.divide l r) ∧ Everywhere P l ∧ Everywhere P r :=
  List.forall_mem_cons.trans (and_congr_right' List.forall_mem_append)

theorem everywhere_compare {op : Comparison} {l r : Expr ν (some .number)} :
    Everywhere P (.compare op l r) ↔ P (.compare op l r) ∧ Everywhere P l ∧ Everywhere P r :=
  List.forall_mem_cons.trans (and_congr_right' List.forall_mem_append)

theorem everywhere_equal {l r : Expr ν none} :
    Everywhere P (.equal l r) ↔ P (.equal l r) ∧ Everywhere P l ∧ Everywhere P r :=
  List.forall_mem_cons.trans (and_congr_right' List.forall_mem_append)

theorem everywhere_chain {op : Associative} {operands : List (Expr ν (some .number))} :
    Everywhere P (.chain op operands) ↔
      P (.chain op operands) ∧ ∀ e ∈ operands, Everywhere P e := by
  unfold Everywhere
  rw [subtrees, inside_chain, List.forall_mem_cons, List.forall_mem_flatMap]

theorem everywhere_logic {op : Logical} {operands : List (Expr ν (some .boolean))} :
    Everywhere P (.logic op operands) ↔
      P (.logic op operands) ∧ ∀ e ∈ operands, Everywhere P e := by
  unfold Everywhere
  rw [subtrees, inside_logic, List.forall_mem_cons, List.forall_mem_flatMap]

end

end PathExpr.Expr
