import PathExpr.Compile
import PathExpr.Proofs.Double.Bits
import PathExpr.Proofs.Grammar.Basic

set_option autoImplicit false

namespace PathExpr.Expr

/-- Whether a tree is a path, with or without a default. -/
def isLookup {ν : Type} {k : Option Kind} : Expr ν k → Bool
  | .path _ => true
  | .withDefault _ _ => true
  | _ => false

/-- The trees that text can spell. A path takes on a kind only from an operator that it is an
operand of, so it has none at the root, on a side of `==` and as the default of another path without
a kind. -/
inductive Canonical : {k : Option Kind} → Expr Float k → Prop
  | path {k : Option Kind} (p : Path) : Canonical (.path p : Expr Float k)
  | withDefault {k : Option Kind} (p : Path) {d : Expr Float k} (default : Canonical d) :
      Canonical (.withDefault p d)
  | typed {k : Kind} {e : Expr Float (some k)} (noLookup : e.isLookup = false)
      (inside : Canonical e) : Canonical (.typed e)
  | number {x : Float} (finite : x.isFinite = true) : Canonical (.number x)
  | negate {e : Expr Float (some .number)} (inside : Canonical e) : Canonical (.negate e)
  | chain (op : Associative) {operands : List (Expr Float (some .number))}
      (several : operands ≠ []) (inside : ∀ e ∈ operands, Canonical e) :
      Canonical (.chain op operands)
  | subtract {l r : Expr Float (some .number)} (left : Canonical l) (right : Canonical r) :
      Canonical (.subtract l r)
  | divide {l r : Expr Float (some .number)} (left : Canonical l) (right : Canonical r) :
      Canonical (.divide l r)
  | length {a : Expr Float (some .array)} (inside : Canonical a) : Canonical (.length a)
  | boolean (b : Bool) : Canonical (.boolean b)
  | not {e : Expr Float (some .boolean)} (inside : Canonical e) : Canonical (.not e)
  | compare (op : Comparison) {l r : Expr Float (some .number)} (left : Canonical l)
      (right : Canonical r) : Canonical (.compare op l r)
  | equal {l r : Expr Float none} (left : Canonical l) (right : Canonical r) :
      Canonical (.equal l r)
  | logic (op : Logical) {operands : List (Expr Float (some .boolean))}
      (several : 2 ≤ operands.length) (inside : ∀ e ∈ operands, Canonical e) :
      Canonical (.logic op operands)
  | string (s : String) : Canonical (.string s)

theorem Serves.canonical {k : Kind} {e : Tree} {e' : Expr Float (some k)} (serves : Serves k e e')
    (canonical : Canonical e) : Canonical e' := by
  induction serves with
  | path p => exact .path p
  | withDefault p _ ih =>
      cases canonical with
      | withDefault _ default => exact .withDefault p (ih default)
  | typed e =>
      cases canonical with
      | typed _ inside => exact inside

/-- Joining further operands keeps a tree canonical, whether the last of them make a run or not. -/
theorem canonical_joined (op : Associative)
    {rest : List (Direction × Expr Float (some .number))}
    (canonical : ∀ step ∈ rest, Canonical step.2) :
    (∀ left, Canonical left → Canonical (joined op left rest)) ∧
      ∀ run, run ≠ [] → (∀ e ∈ run, Canonical e) → Canonical (joinedRun op run rest) := by
  have against : ∀ l r : Expr Float (some .number), Canonical l → Canonical r →
      Canonical (inverse op l r) := by
    intro l r left right
    cases op with
    | sum => exact .subtract left right
    | product => exact .divide left right
  induction rest with
  | nil =>
      constructor
      · intro left isCanonical
        rw [joined]
        exact isCanonical
      · intro run several inside
        rw [joinedRun]
        exact .chain op several inside
  | cons step rest ih =>
      obtain ⟨direction, e⟩ := step
      have here : Canonical e := canonical _ List.mem_cons_self
      obtain ⟨alone, inRun⟩ := ih fun step inRest =>
        canonical step (List.mem_cons_of_mem _ inRest)
      cases direction with
      | along =>
          constructor
          · intro left isCanonical
            rw [joined]
            apply inRun _ (List.cons_ne_nil _ _)
            intro e' inPair
            rcases List.mem_cons.1 inPair with rfl | inSingle
            · exact isCanonical
            · rw [List.mem_singleton.1 inSingle]
              exact here
          · intro run several inside
            rw [joinedRun]
            apply inRun _ (List.append_ne_nil_of_left_ne_nil several _)
            intro e' inLonger
            rcases List.mem_append.1 inLonger with inBefore | inSingle
            · exact inside e' inBefore
            · rw [List.mem_singleton.1 inSingle]
              exact here
      | against =>
          constructor
          · intro left isCanonical
            rw [joined]
            exact alone _ (against left e isCanonical here)
          · intro run several inside
            rw [joinedRun]
            exact alone _ (against _ e (.chain op several inside) here)

theorem isLookup_inverse (op : Associative) (l r : Expr Float (some .number)) :
    (inverse op l r).isLookup = false := by
  cases op <;> rfl

theorem isLookup_joined {op : Associative} {left : Expr Float (some .number)}
    {rest : List (Direction × Expr Float (some .number))} (several : rest ≠ []) :
    (joined op left rest).isLookup = false := by
  have further : ∀ rest : List (Direction × Expr Float (some .number)),
      (∀ left, left.isLookup = false → (joined op left rest).isLookup = false) ∧
        ∀ run, (joinedRun op run rest).isLookup = false := by
    intro rest
    induction rest with
    | nil =>
        constructor
        · intro left noLookup
          rw [joined]
          exact noLookup
        · intro run
          rw [joinedRun]
          rfl
    | cons step rest ih =>
        obtain ⟨direction, e⟩ := step
        cases direction with
        | along =>
            constructor
            · intro left _
              rw [joined]
              exact ih.2 _
            · intro run
              rw [joinedRun]
              exact ih.2 _
        | against =>
            constructor
            · intro left _
              rw [joined]
              exact ih.1 _ (isLookup_inverse op left e)
            · intro run
              rw [joinedRun]
              exact ih.1 _ (isLookup_inverse op _ e)
  obtain ⟨⟨direction, e⟩, others, rfl⟩ := List.exists_cons_of_ne_nil several
  cases direction with
  | along =>
      rw [joined]
      exact (further others).2 _
  | against =>
      rw [joined]
      exact (further others).1 _ (isLookup_inverse op left e)

def FiniteNumbers (tokens : List Token) : Prop := ∀ x, Token.number x ∈ tokens → x.isFinite = true

namespace FiniteNumbers

variable {tokens first second : List Token}

theorem tail {t : Token} (finite : FiniteNumbers (t :: tokens)) : FiniteNumbers tokens :=
  fun x inTail => finite x (List.mem_cons_of_mem t inTail)

theorem left (finite : FiniteNumbers (first ++ second)) : FiniteNumbers first :=
  fun x inFirst => finite x (List.mem_append_left second inFirst)

theorem right (finite : FiniteNumbers (first ++ second)) : FiniteNumbers second :=
  fun x inSecond => finite x (List.mem_append_right first inSecond)

theorem of_mem_flatMap {α : Type} {parts : List α} {f : α → List Token}
    (finite : FiniteNumbers (parts.flatMap f)) {part : α} (inParts : part ∈ parts) :
    FiniteNumbers (f part) :=
  fun x inPart => finite x (List.mem_flatMap.2 ⟨part, inParts, inPart⟩)

theorem of_mem_intercalate {separator : List Token} {parts : List (List Token)}
    (finite : FiniteNumbers (separator.intercalate parts)) {part : List Token}
    (inParts : part ∈ parts) : FiniteNumbers part := by
  induction parts with
  | nil => cases inParts
  | cons head rest ih =>
      cases rest with
      | nil =>
          rw [List.intercalate_singleton] at finite
          rw [List.mem_singleton.1 inParts]
          exact finite
      | cons next others =>
          rw [List.intercalate_cons_cons] at finite
          rcases List.mem_cons.1 inParts with rfl | inRest
          · exact finite.left.left
          · exact ih finite.right inRest

end FiniteNumbers

theorem Written.finiteNumbers {op : Associative} {direction : Direction}
    {phrase written : List Token} (isWritten : Written op direction phrase written)
    (finite : FiniteNumbers written) : FiniteNumbers phrase := by
  cases isWritten with
  | plus | minus | star | slash => exact finite.tail
  | @negative y rest isNegative =>
      intro x inPhrase
      rcases List.mem_cons.1 inPhrase with same | inRest
      · cases same
        exact Double.isFinite_neg (finite y List.mem_cons_self)
      · exact finite.tail x inRest

/-- The tree of a phrase with finite numbers is canonical. -/
theorem Derives.canonical {level : Level} {tokens : List Token} {e : Tree}
    (derives : Derives level tokens e) (finite : FiniteNumbers tokens) : Canonical e := by
  induction derives with
  | tighter _ _ ih => exact ih finite
  | @logic op first rest several _ _ ihFirst ihRest =>
      apply Canonical.typed rfl
      apply Canonical.logic op
      · have atLeast := List.length_pos_iff.2 several
        rw [List.length_cons, List.length_map]
        omega
      · intro e inOperands
        rcases List.mem_cons.1 inOperands with rfl | inRest
        · exact first.serves.canonical (ihFirst finite.left)
        · obtain ⟨next, isNext, rfl⟩ := List.mem_map.1 inRest
          exact next.2.serves.canonical
            (ihRest next isNext (finite.right.of_mem_flatMap isNext).tail)
  | equal _ _ ihLeft ihRight =>
      apply Canonical.typed rfl
      exact .equal (ihLeft finite.left) (ihRight finite.right.tail)
  | @compare op left right _ _ ihLeft ihRight =>
      apply Canonical.typed rfl
      exact .compare op (left.serves.canonical (ihLeft finite.left))
        (right.serves.canonical (ihRight finite.right.tail))
  | @chain op first rest several _ _ ihFirst ihRest =>
      have steps : ∀ step ∈ rest.map Further.step, Canonical step.2 := by
        intro step inSteps
        obtain ⟨next, isNext, rfl⟩ := List.mem_map.1 inSteps
        have phrase := next.isWritten.finiteNumbers (finite.right.of_mem_flatMap isNext)
        exact next.part.serves.canonical (ihRest next isNext phrase)
      have someStep : rest.map Further.step ≠ [] :=
        fun none => several (List.map_eq_nil_iff.1 none)
      apply Canonical.typed (isLookup_joined someStep)
      exact (canonical_joined op steps).1 first.operand
        (first.serves.canonical (ihFirst finite.left))
  | @negate part _ ih =>
      apply Canonical.typed rfl
      exact .negate (part.serves.canonical (ih finite.tail))
  | @not part _ ih =>
      apply Canonical.typed rfl
      exact .not (part.serves.canonical (ih finite.tail))
  | number x => exact .typed rfl (.number (finite x List.mem_cons_self))
  | boolean b => exact .typed rfl (.boolean b)
  | string s => exact .typed rfl (.string s)
  | path p => exact .path p
  | withDefault p _ ih => exact .withDefault p (ih finite.tail.tail)
  | parens _ ih => exact ih finite.tail.left
  | @fold op args several _ ih =>
      apply Canonical.typed rfl
      apply Canonical.chain op
      · intro none
        exact several (List.map_eq_nil_iff.1 none)
      · intro e inOperands
        obtain ⟨arg, isArg, rfl⟩ := List.mem_map.1 inOperands
        have phrase := finite.tail.tail.left.of_mem_intercalate
          (List.mem_map_of_mem (f := Part.tokens) isArg)
        exact arg.serves.canonical (ih arg isArg phrase)
  | @length arg _ ih =>
      apply Canonical.typed rfl
      exact .length (arg.serves.canonical (ih finite.tail.tail.left))

end PathExpr.Expr
