import PathExpr.Expr.Evaluate
import PathExpr.Json.Number

set_option autoImplicit false

namespace PathExpr

namespace Json

variable {N : Type} [Numbers N]

theorem lookup_fieldsToValue (fields : List (String × Json N)) (name : String) :
    (fieldsToValue fields).lookup name = (fields.lookup name).map toValue := by
  induction fields with
  | nil => rfl
  | cons field rest ih =>
      rw [fieldsToValue, List.lookup_cons, List.lookup_cons]
      cases name == field.1 with
      | true => rfl
      | false => exact ih

theorem step?_toValue (document : Json N) (s : Segment) :
    document.toValue.step? s = (document.step? s).map toValue := by
  cases document with
  | number n =>
      rw [toValue]
      cases Numbers.toDouble? n <;> rfl
  | object fields =>
      cases s with
      | field name =>
          rw [toValue]
          exact lookup_fieldsToValue fields name
      | index => rfl
  | array items =>
      cases s with
      | field => rfl
      | index position =>
          rw [toValue, itemsToValue_eq]
          exact List.getElem?_map
  | _ => rfl

theorem get?_toValue (document : Json N) (path : Path) :
    document.toValue.get? path = (document.get? path).map toValue := by
  obtain ⟨segments⟩ := path
  unfold Value.get? get?
  dsimp only
  induction segments generalizing document with
  | nil => rfl
  | cons s rest ih =>
      rw [List.foldlM_cons, List.foldlM_cons, step?_toValue]
      cases document.step? s with
      | none => rfl
      | some part => exact ih part

theorem payload?_toValue (k : Kind) (document : Json N) :
    document.toValue.payload? k = document.payload? k := by
  cases document with
  | number n =>
      rw [toValue]
      -- A number that is no double is missing, and so is the null that it becomes.
      cases isDouble : Numbers.toDouble? n <;> cases k <;> first | rfl | exact isDouble.symm
  | _ => cases k <;> rfl

/-- Turning a document into a value commutes with every step of a path, so it does not matter which
of the two a lookup walks. -/
theorem context_eq (document : Json N) :
    document.context = Context.narrowed document.toValue.get? := by
  have same : document.context.lookup = (Context.narrowed document.toValue.get?).lookup := by
    funext family path
    cases family with
    | none => exact (get?_toValue document path).symm
    | some k =>
        show (document.get? path).bind (payload? k) =
          (document.toValue.get? path).bind (Value.payload? k)
        rw [get?_toValue, Option.bind_map]
        apply Option.bind_congr
        intro part _
        exact (payload?_toValue k part).symm
  exact congrArg Context.mk same

end Json

theorem Context.ofValue_eq {ν : Type} (v : Value ν) : ofValue v = narrowed v.get? := by
  have same : (ofValue v).lookup = (narrowed v.get?).lookup := by
    funext family path
    cases family <;> rfl
  exact congrArg Context.mk same

/-- A document and its value answer every lookup alike, and lookups of a kind as they would be
answered from those of any kind. So an expression has the same result in both, found by the same
lookups, and also where only the untyped lookups of the value are given. -/
theorem Json.context_interchangeable {N : Type} [Json.Numbers N] (document : Json N) :
    (∀ family path, document.context.lookup family path =
      (Context.narrowed (document.context.lookup none)).lookup family path) ∧
    (∀ family path, (Context.ofValue document.toValue).lookup family path =
      (Context.narrowed ((Context.ofValue document.toValue).lookup none)).lookup family path) ∧
    (∀ family path, document.context.lookup family path =
      (Context.ofValue document.toValue).lookup family path) ∧
    ∀ {k : Option Kind} (e : Expr Float k),
      e.evaluate document.context = e.evaluate (Context.ofValue document.toValue) ∧
      e.evaluate document.context =
        e.evaluate (Context.narrowed ((Context.ofValue document.toValue).lookup none)) := by
  rw [document.context_eq, Context.ofValue_eq]
  exact ⟨fun _ _ => rfl, fun _ _ => rfl, fun _ _ => rfl, fun _ => ⟨rfl, rfl⟩⟩

theorem Json.context_interchangeable_nested_number :
    let document : Json Json.Number :=
      .object [("items", .array [.number (.integer 7 (by decide) (by decide))])]
    let path : Path := ⟨[.field "items", .index 0]⟩
    document.context.lookup (some .number) path = some (Double.ofInt 7) ∧
      (Context.ofValue document.toValue).lookup (some .number) path = some (Double.ofInt 7) := by
  intro document path
  have found : document.context.lookup (some .number) path = some (Double.ofInt 7) := rfl
  obtain ⟨-, -, same, -⟩ := Json.context_interchangeable document
  exact ⟨found, (same (some .number) path).symm.trans found⟩

end PathExpr
