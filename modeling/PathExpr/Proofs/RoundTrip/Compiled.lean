import PathExpr.Proofs.Folding.Normal
import PathExpr.Proofs.RoundTrip.Spelled

set_option autoImplicit false

namespace PathExpr.Expr

theorem logicOf_append_identity (op : Logical) (operands : List (Expr Float (some .boolean))) :
    logicOf op (operands ++ [.boolean op.identity]) = logicOf op operands := by
  have joined : List.flatMap (logicOperands op) (operands ++ [.boolean op.identity]) =
      operands.flatMap (logicOperands op) ++ [.boolean op.identity] := List.flatMap_append
  have undecided : [(.boolean op.identity : Expr Float (some .boolean))].any
      (fun e => e.boolean? == some op.absorbing) = false := by
    cases op <;> rfl
  have dropped : [(.boolean op.identity : Expr Float (some .boolean))].filter
      (fun e => e.boolean?.isNone) = [] := rfl
  unfold logicOf
  rw [joined]
  dsimp only
  rw [List.any_append, undecided, Bool.or_false, List.filter_append, dropped, List.append_nil]

theorem normalize_spelledNumber (x : Float) : (spelledNumber x).normalize = .number x := by
  rcases spelledNumber_cases x with ⟨-, same⟩ | ⟨a, -, quotient, same⟩
  · rw [same, normalize]
  · rw [same, normalize, normalize, normalize]
    show (.number (a / 0) : Expr Float _) = .number x
    rw [quotient]

theorem normalize_spelledLogic (op : Logical) (operands : List (Expr Float (some .boolean))) :
    (spelledLogic op operands).normalize = logicOf op (operands.map normalize) := by
  match operands with
  | [] => rfl
  | [only] =>
      rw [spelledLogic, normalize_logic]
      exact logicOf_append_identity op [only.normalize]
  | first :: second :: others => exact normalize_logic op (first :: second :: others)

/-- Where kinds show, a tree is normalized as it is spelled. -/
theorem normalize_spelled {k : Option Kind} {e : Expr Float k} (inside : Everywhere ShowsKinds e)
    (atRoot : e.hidesKind = false) : e.spelled.normalize = e.normalize := by
  induction e using induct with
  | path p | boolean b | string s => rfl
  | withDefault p d ih =>
      obtain ⟨here, inner⟩ := everywhere_withDefault.1 inside
      rw [spelled, normalize, normalize, ih inner here]
  | typed e ih =>
      have isNode : e.spelled.isLookup = false := (isLookup_spelled e).trans atRoot
      rw [spelled, untyped_of_isLookup isNode, normalize, normalize,
        ih (everywhere_typed.1 inside).2 (hidesKind_of_kind e)]
  | number x => exact normalize_spelledNumber x
  | negate e ih =>
      rw [spelled, normalize, normalize, ih (everywhere_negate.1 inside).2 (hidesKind_of_kind e)]
  | chain op operands ih =>
      have inner := (everywhere_chain.1 inside).2
      rw [spelled_chain, normalize_chain, normalize_chain, List.map_map]
      congr 1
      exact List.map_congr_left fun e isOperand =>
        ih e isOperand (inner e isOperand) (hidesKind_of_kind e)
  | subtract l r ihLeft ihRight =>
      obtain ⟨-, left, right⟩ := everywhere_subtract.1 inside
      rw [spelled, normalize, normalize, ihLeft left (hidesKind_of_kind l),
        ihRight right (hidesKind_of_kind r)]
  | divide l r ihLeft ihRight =>
      obtain ⟨-, left, right⟩ := everywhere_divide.1 inside
      rw [spelled, normalize, normalize, ihLeft left (hidesKind_of_kind l),
        ihRight right (hidesKind_of_kind r)]
  | length a ih =>
      rw [spelled, normalize, normalize, ih (everywhere_length.1 inside).2 (hidesKind_of_kind a)]
  | not e ih =>
      rw [spelled, normalize, normalize, ih (everywhere_not.1 inside).2 (hidesKind_of_kind e)]
  | compare op l r ihLeft ihRight =>
      obtain ⟨-, left, right⟩ := everywhere_compare.1 inside
      rw [spelled, normalize, normalize, ihLeft left (hidesKind_of_kind l),
        ihRight right (hidesKind_of_kind r)]
  | equal l r ihLeft ihRight =>
      obtain ⟨here, left, right⟩ := everywhere_equal.1 inside
      rw [spelled, normalize, normalize, ihLeft left here.1, ihRight right here.2]
  | logic op operands ih =>
      have inner := (everywhere_logic.1 inside).2
      rw [spelled_logic, normalize_spelledLogic, normalize_logic, List.map_map]
      congr 1
      exact List.map_congr_left fun e isOperand =>
        ih e isOperand (inner e isOperand) (hidesKind_of_kind e)

theorem Canonical.hidesKind_eq {k : Option Kind} {e : Expr Float k} (canonical : Canonical e) :
    e.hidesKind = false := by
  cases canonical with
  | typed noLookup _ => exact noLookup
  | _ => rfl

theorem Canonical.showsKinds {k : Option Kind} {e : Expr Float k} (canonical : Canonical e) :
    Everywhere ShowsKinds e := by
  induction canonical with
  | path p => exact everywhere_of_leaf rfl trivial
  | withDefault p default ih => exact everywhere_withDefault.2 ⟨default.hidesKind_eq, ih⟩
  | typed _ _ ih => exact everywhere_typed.2 ⟨trivial, ih⟩
  | number _ => exact everywhere_of_leaf rfl trivial
  | negate _ ih => exact everywhere_negate.2 ⟨trivial, ih⟩
  | chain op _ _ ih => exact everywhere_chain.2 ⟨trivial, ih⟩
  | subtract _ _ ihLeft ihRight => exact everywhere_subtract.2 ⟨trivial, ihLeft, ihRight⟩
  | divide _ _ ihLeft ihRight => exact everywhere_divide.2 ⟨trivial, ihLeft, ihRight⟩
  | length _ ih => exact everywhere_length.2 ⟨trivial, ih⟩
  | boolean b => exact everywhere_of_leaf rfl trivial
  | not _ ih => exact everywhere_not.2 ⟨trivial, ih⟩
  | compare op _ _ ihLeft ihRight => exact everywhere_compare.2 ⟨trivial, ihLeft, ihRight⟩
  | equal left right ihLeft ihRight =>
      exact everywhere_equal.2 ⟨⟨left.hidesKind_eq, right.hidesKind_eq⟩, ihLeft, ihRight⟩
  | logic op _ _ ih => exact everywhere_logic.2 ⟨trivial, ih⟩
  | string s => exact everywhere_of_leaf rfl trivial

/-- Normalizing makes no paths and removes none at a root. -/
theorem isLookup_normalize {k : Kind} (e : Expr Float (some k)) :
    e.normalize.isLookup = e.isLookup := by
  cases e with
  | path p | withDefault p d | number x | length a | boolean b | string s => rfl
  | negate e =>
      rw [normalize]
      cases e.normalize <;> rfl
  | not e =>
      rw [normalize]
      cases e.normalize <;> rfl
  | chain op operands =>
      rw [normalize_chain]
      exact chainOf_cases (motive := fun d => d.isLookup = false) (fun _ => rfl)
        fun _ _ _ => ⟨rfl, fun _ _ => rfl⟩
  | subtract l r | divide l r | compare op l r =>
      exact binaryOf_cases (motive := fun d => d.isLookup = false) (fun _ _ => rfl) fun _ => rfl
  | equal l r =>
      rw [normalize, equalOf]
      split <;> rfl
  | logic op operands =>
      rw [normalize_logic]
      exact logicOf_cases (motive := fun d => d.isLookup = false) (fun _ => rfl)
        fun _ _ _ => rfl

theorem hidesKind_normalize {k : Option Kind} (e : Expr Float k) :
    e.normalize.hidesKind = e.hidesKind := by
  cases k with
  | none =>
      cases e with
      | path p | withDefault p d => rfl
      | typed e => exact isLookup_normalize e
  | some k => rw [hidesKind_of_kind, hidesKind_of_kind]

theorem showsKinds_of_number (e : Expr Float (some .number)) : ShowsKinds e := by
  cases e with
  | withDefault p d => exact hidesKind_of_kind d
  | _ => trivial

/-- Normalizing makes no paths, so it hides no kinds. -/
theorem showsKinds_normalize {k : Option Kind} (e : Expr Float k) (shows : ShowsKinds e) :
    ShowsKinds e.normalize := by
  cases e with
  | path p | typed e | boolean b | string s => trivial
  | withDefault p d => exact (hidesKind_normalize d).trans shows
  | number x | negate e | chain op operands | subtract l r | divide l r | length a =>
      exact showsKinds_of_number _
  | not e =>
      rw [normalize]
      cases e.normalize <;> trivial
  | compare op l r =>
      exact binaryOf_cases (motive := fun d => ShowsKinds d) (fun _ _ => trivial) fun _ => trivial
  | equal l r =>
      rw [normalize, equalOf]
      split
      · trivial
      · exact ⟨(hidesKind_normalize l).trans shows.1, (hidesKind_normalize r).trans shows.2⟩
  | logic op operands =>
      rw [normalize_logic]
      exact logicOf_cases (motive := fun d => ShowsKinds d) (fun _ => trivial)
        fun _ _ _ => trivial

theorem Normal.hasOperands {k : Option Kind} {e : Expr Float k} (normal : Normal e) :
    Everywhere HasOperands e := by
  refine Everywhere.mono normal fun d folded => ?_
  cases d with
  | chain op operands =>
      cases folded with
      | noLiteral several _ => exact several
      | literal several _ _ => exact List.append_ne_nil_of_left_ne_nil several _
  | _ => trivial

theorem compile_eq_ok_iff {text : String} {e : Tree} :
    compile text = .ok e ↔ ∃ c, parse text = .ok c ∧ c.normalize = e := map_eq_ok

theorem compile_of_canonical {c : Tree} (canonical : Canonical c) :
    compile c.text = .ok c.normalize :=
  compile_eq_ok_iff.2 ⟨c, parse_of_canonical canonical, rfl⟩

/-- What is read from the text of a compiled form has the results of the form, and it is normalized
to the form. -/
theorem compiled_spelled {text : String} {e : Tree} (compiled : compile text = .ok e) :
    parse e.text = .ok e.spelled ∧ e.spelled.normalize = e ∧
      ∀ ctx : Context Float, e.spelled.evaluate ctx = e.evaluate ctx := by
  obtain ⟨c, parsed, rfl⟩ := compile_eq_ok_iff.1 compiled
  have canonical := canonical_of_parse parsed
  have normal := normal_normalize c
  have shows : Everywhere ShowsKinds c.normalize := everywhere_normalize (fun _ => trivial)
    (canonical.showsKinds.mono fun d => showsKinds_normalize d)
  have atRoot : c.normalize.hidesKind = false := by
    rw [hidesKind_normalize]
    exact canonical.hidesKind_eq
  refine ⟨parse_text_eq_spelled normal.hasOperands, ?_, fun _ => evaluate_spelled shows atRoot⟩
  rw [normalize_spelled shows atRoot, normalize_of_normal normal]

/-- Compiling the text of a compiled form gives that form again. -/
theorem compile_text {text : String} {e : Tree} (compiled : compile text = .ok e) :
    compile e.text = .ok e := by
  obtain ⟨read, again, -⟩ := compiled_spelled compiled
  exact compile_eq_ok_iff.2 ⟨e.spelled, read, again⟩

/-- An infinity and an operator with one operand, which are both written otherwise. -/
theorem compile_text_folded_infinity :
    let e : Tree :=
      .typed (.logic .and [.compare .less (.number (1 / 0)) (.path ⟨[.field "a"]⟩)])
    compile "(true && ((1 / 0) < $.a))" = .ok e ∧
      compile "(((1 / 0) < $.a) && true)" = .ok e := by
  intro e
  let c : Tree := .typed (.logic .and [.boolean true,
    .compare .less (.divide (.number 1) (.number 0)) (.path ⟨[.field "a"]⟩)])
  have canonical : Canonical c := by
    refine .typed rfl (.logic .and (Nat.le_refl 2) (List.forall_mem_cons.2 ⟨.boolean true,
      List.forall_mem_singleton.2 (.compare .less (.divide ?_ ?_) (.path _))⟩))
    · exact .number (by decide +kernel)
    · exact .number (by decide +kernel)
  have spelled : c.text = "(true && ((1 / 0) < $.a))" := by decide +kernel
  have written : e.text = "(((1 / 0) < $.a) && true)" := by decide +kernel
  have compiled : compile c.text = .ok e := compile_of_canonical canonical
  rw [spelled] at compiled
  have again := compile_text compiled
  rw [written] at again
  exact ⟨compiled, again⟩

end PathExpr.Expr
