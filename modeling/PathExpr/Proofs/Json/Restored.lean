import PathExpr.Json.Number
import PathExpr.Proofs.Decimal.Nearest
import PathExpr.Proofs.Double.Rounded
import PathExpr.Proofs.Json.Context

set_option autoImplicit false

namespace PathExpr

namespace Double

theorem units_two_pow (n : Nat) :
    units ((n + 1074) * fractions + 2 ^ 52) = 2 ^ (n + 52) * unitsPerOne := by
  rw [units_eq (by decide) (.inr (Nat.le_refl _)), two_pow_add_eq, Nat.pow_add, Nat.mul_assoc]
  exact Nat.mul_left_comm _ _ _

theorem lt_infiniteMagnitude_of_units {m : Nat} (small : units m < 2 ^ 53 * unitsPerOne) :
    m < infiniteMagnitude := by
  have isUnits : units (1075 * fractions + 2 ^ 52) = 2 ^ 53 * unitsPerOne := units_two_pow 1
  have below : m < 1075 * fractions + 2 ^ 52 := by
    rw [← isUnits] at small
    exact units_strictMono.lt_iff_lt.1 small
  exact Nat.lt_trans below (by decide)

theorem nearest_whole_lt {whole : Nat} (bounded : whole ≤ 2 ^ 64) :
    nearest (whole * unitsPerOne) 1 < infiniteMagnitude := by
  have isUnits : units (1086 * fractions + 2 ^ 52) = 2 ^ 64 * unitsPerOne := units_two_pow 12
  have below : nearest (whole * unitsPerOne) 1 ≤ 1086 * fractions + 2 ^ 52 := by
    apply nearest_le Nat.one_pos (by decide)
    rw [isUnits, Nat.one_mul]
    exact Nat.mul_le_mul_right unitsPerOne bounded
  exact Nat.lt_of_le_of_lt below (by decide)

end Double

theorem Decimal.nearest_whole (whole : Nat) :
    (Decimal.mk whole 0).nearest = Double.nearest (whole * Double.unitsPerOne) 1 := by
  rw [nearest_eq]
  show Double.nearest (whole * 1 * Double.unitsPerOne) 1 = _
  rw [Nat.mul_one]

namespace Double

/-- The sign of an integer is that of the double, which is not negative zero. -/
theorem ofInt_signed {negative : Bool} {whole : Nat} (signed : ¬(whole = 0 ∧ negative = true)) :
    ofInt (if negative then -whole else whole) =
      ofMagnitude negative (nearest (whole * unitsPerOne) 1) := by
  have sign : decide ((if negative then -(whole : Int) else whole) < 0) = negative := by
    cases negative with
    | false =>
        apply decide_eq_false
        rw [if_neg Bool.false_ne_true]
        omega
    | true =>
        have positive : whole ≠ 0 := fun isZero => signed ⟨isZero, rfl⟩
        apply decide_eq_true
        rw [if_pos rfl]
        omega
  have amount : (if negative then -(whole : Int) else whole).natAbs = whole := by
    cases negative with
    | false => exact Int.natAbs_natCast whole
    | true => exact (Int.natAbs_neg whole).trans (Int.natAbs_natCast whole)
  rw [ofInt, Decimal.toDouble, sign, amount, Decimal.nearest_whole]

theorem toInt_signed {negative : Bool} {whole : Nat} (small : whole < 2 ^ 53) :
    (Int64.ofInt (if negative then -whole else whole)).toInt =
      if negative then -(whole : Int) else whole := by
  apply Int64.toInt_ofInt_of_le <;> split <;> omega

theorem isFinite_ofInt {i : Int} (bounded : i.natAbs ≤ 2 ^ 64) : (ofInt i).isFinite = true := by
  apply isFinite_ofMagnitude
  rw [Decimal.nearest_whole]
  exact nearest_whole_lt bounded

/-- A double that is an integer below `2 ^ 53` is the double nearest to it. -/
theorem of_integer? {x : Float} {i : Int64} (isInteger : integer? x = some i) :
    ofInt i.toInt = x ∧ x.isFinite = true := by
  unfold integer? at isInteger
  dsimp only at isInteger
  split at isInteger
  · rename_i whole
    obtain ⟨small, isWhole, signed⟩ := whole
    have restored : units (magnitude x) / unitsPerOne * unitsPerOne = units (magnitude x) :=
      Nat.div_mul_cancel (Nat.dvd_of_mod_eq_zero isWhole)
    have finite : magnitude x < infiniteMagnitude :=
      lt_infiniteMagnitude_of_units ((Nat.div_lt_iff_lt_mul unitsPerOne_pos).1 small)
    cases isInteger
    rw [toInt_signed small, ofInt_signed signed, restored, nearest_units finite,
      ofMagnitude_magnitude]
    exact ⟨rfl, isFinite_of_magnitude_lt finite⟩
  · cases isInteger

end Double

namespace Json

/-- What the laws of documents ask of the library that they are read and written with: it keeps
finite doubles and 64-bit integers, gives the latter as the nearest doubles, and has no number for
anything that is not finite. -/
structure Numbers.Exact (N : Type) [Numbers N] : Prop where
  ofInteger : ∀ i : Int64, toDouble? (ofInteger i : N) = some (Double.ofInt i.toInt)
  ofFinite : ∀ x : Float, x.isFinite = true → ∃ n : N, ofDouble? x = some n ∧ toDouble? n = some x
  ofInfinite : ∀ x : Float, x.isFinite = false → (ofDouble? x : Option N) = none
  finite : ∀ (n : N) (x : Float), toDouble? n = some x → x.isFinite = true

theorem Number.exact : Numbers.Exact Number where
  ofInteger _ := rfl
  ofFinite x finite := ⟨.double x finite, dif_pos finite, rfl⟩
  ofInfinite x infinite := dif_neg (ne_true_of_eq_false infinite)
  finite n x isDouble := by
    cases isDouble
    cases n with
    | integer i lower upper => exact Double.isFinite_ofInt (by omega)
    | double x finite => exact finite

end Json

namespace Value

mutual

/-- The value with null for each number in it that is not finite. -/
def finitePart : Value Float → Value Float
  | .null => .null
  | .boolean b => .boolean b
  | .number x => if x.isFinite then .number x else .null
  | .string s => .string s
  | .array items => .array (finiteItems items)
  | .object fields => .object (finiteFields fields)

def finiteItems : List (Value Float) → List (Value Float)
  | [] => []
  | item :: rest => item.finitePart :: finiteItems rest

def finiteFields : List (String × Value Float) → List (String × Value Float)
  | [] => []
  | (name, item) :: rest => (name, item.finitePart) :: finiteFields rest

end

end Value

namespace Json

variable {N : Type} [Numbers N]

theorem toValue_ofDouble (numbers : Numbers.Exact N) (x : Float) :
    (ofDouble x : Json N).toValue = (Value.number x).finitePart := by
  rw [ofDouble, Value.finitePart]
  cases isInteger : Double.integer? x with
  | some i =>
      obtain ⟨same, finite⟩ := Double.of_integer? isInteger
      dsimp only
      rw [toValue, numbers.ofInteger, same, finite, if_pos rfl]
  | none =>
      dsimp only
      cases finite : x.isFinite with
      | false =>
          rw [numbers.ofInfinite x finite]
          rfl
      | true =>
          obtain ⟨n, isNumber, same⟩ := numbers.ofFinite x finite
          rw [isNumber]
          dsimp only
          rw [toValue, same, if_pos rfl]

mutual

theorem toValue_ofValue (numbers : Numbers.Exact N) :
    (v : Value Float) → (ofValue v : Json N).toValue = v.finitePart
  | .null => rfl
  | .boolean _ => rfl
  | .number x => toValue_ofDouble numbers x
  | .string _ => rfl
  | .array items => congrArg Value.array (itemsToValue_itemsOfValue numbers items)
  | .object fields => congrArg Value.object (fieldsToValue_fieldsOfValue numbers fields)

theorem itemsToValue_itemsOfValue (numbers : Numbers.Exact N) : (items : List (Value Float)) →
    itemsToValue (itemsOfValue items : List (Json N)) = Value.finiteItems items
  | [] => rfl
  | item :: rest => by
      rw [itemsOfValue, itemsToValue, toValue_ofValue numbers item,
        itemsToValue_itemsOfValue numbers rest, Value.finiteItems]

theorem fieldsToValue_fieldsOfValue (numbers : Numbers.Exact N) :
    (fields : List (String × Value Float)) →
      fieldsToValue (fieldsOfValue fields : List (String × Json N)) = Value.finiteFields fields
  | [] => rfl
  | (name, item) :: rest => by
      rw [fieldsOfValue, fieldsToValue, toValue_ofValue numbers item,
        fieldsToValue_fieldsOfValue numbers rest, Value.finiteFields]

end

mutual

/-- The numbers of a document are finite, or null if they are no doubles. -/
theorem finitePart_toValue (numbers : Numbers.Exact N) :
    (document : Json N) → document.toValue.finitePart = document.toValue
  | .null => rfl
  | .boolean _ => rfl
  | .number n => by
      rw [toValue]
      cases isDouble : Numbers.toDouble? n with
      | none => rfl
      | some x => exact if_pos (numbers.finite n x isDouble)
  | .string _ => rfl
  | .array items => congrArg Value.array (finiteItems_itemsToValue numbers items)
  | .object fields => congrArg Value.object (finiteFields_fieldsToValue numbers fields)

theorem finiteItems_itemsToValue (numbers : Numbers.Exact N) : (items : List (Json N)) →
    Value.finiteItems (itemsToValue items) = itemsToValue items
  | [] => rfl
  | item :: rest => by
      rw [itemsToValue, Value.finiteItems, finitePart_toValue numbers item,
        finiteItems_itemsToValue numbers rest]

theorem finiteFields_fieldsToValue (numbers : Numbers.Exact N) :
    (fields : List (String × Json N)) →
      Value.finiteFields (fieldsToValue fields) = fieldsToValue fields
  | [] => rfl
  | (name, item) :: rest => by
      rw [fieldsToValue, Value.finiteFields, finitePart_toValue numbers item,
        finiteFields_fieldsToValue numbers rest]

end

def normalForm (document : Json N) : Json N := ofValue document.toValue

theorem toValue_normalForm (numbers : Numbers.Exact N) (document : Json N) :
    document.normalForm.toValue = document.toValue := by
  rw [normalForm, toValue_ofValue numbers, finitePart_toValue numbers]

theorem context_normalForm (numbers : Numbers.Exact N) (document : Json N) :
    document.normalForm.context = document.context := by
  rw [context_eq, context_eq, toValue_normalForm numbers]

/-- A value that was turned into a document comes back with null for the numbers that are not
finite, and otherwise as it was. So documents have a normal form that is one itself, and the
document and its normal form answer all lookups alike. -/
theorem restored_and_normalForm (numbers : Numbers.Exact N) :
    (∀ v : Value Float, (ofValue v : Json N).toValue = v.finitePart) ∧
    ∀ document : Json N, document.normalForm.normalForm = document.normalForm ∧
      ∀ family path,
        document.normalForm.context.lookup family path = document.context.lookup family path := by
  refine ⟨toValue_ofValue numbers, fun document => ⟨?_, fun family path => ?_⟩⟩
  · exact congrArg ofValue (toValue_normalForm numbers document)
  · rw [context_normalForm numbers]

/-- The least double above the integers that become integers of a document, negative zero, and a
number that becomes null. -/
theorem restored_and_normalForm_array :
    let document : Json Number :=
      ofValue (.array [.number 9007199254740992, .number (-0), .number (0 / 0)])
    document.toValue = .array [.number 9007199254740992, .number (-0), .null] ∧
      document.normalForm.normalForm = document.normalForm := by
  intro document
  obtain ⟨restored, normal⟩ := restored_and_normalForm Number.exact
  refine ⟨?_, (normal document).1⟩
  have large : (9007199254740992 : Float).isFinite = true := by decide +kernel
  have zero : (-0 : Float).isFinite = true := by decide +kernel
  have undefined : (0 / 0 : Float).isFinite = false := by decide +kernel
  rw [restored]
  simp only [Value.finitePart, Value.finiteItems, large, zero, undefined, if_true]
  rfl

end Json

end PathExpr
