import PathExpr.Arithmetic
import PathExpr.Fields
import PathExpr.Kind
import PathExpr.Path

set_option autoImplicit false

namespace PathExpr

/-- A value has one of the four kinds, or it is null or an object, which only data has. The entries
of an object are kept in the order of their names (`Fields`). -/
inductive Value (ν : Type) where
  | null
  | boolean (value : Bool)
  | number (value : ν)
  | string (text : String)
  | array (items : List (Value ν))
  | object (fields : List (String × Value ν))

abbrev Payload (ν : Type) : Kind → Type
  | .number => ν
  | .boolean => Bool
  | .string => String
  | .array => List (Value ν)

namespace Value

variable {ν : Type}

def ofPayload : (k : Kind) → Payload ν k → Value ν
  | .number, x => .number x
  | .boolean, b => .boolean b
  | .string, s => .string s
  | .array, items => .array items

/-- What the value holds if it is of this kind. -/
def payload? : (k : Kind) → Value ν → Option (Payload ν k)
  | .number, .number x => some x
  | .boolean, .boolean b => some b
  | .string, .string s => some s
  | .array, .array items => some items
  | _, _ => none

def kind? : Value ν → Option Kind
  | .boolean _ => some .boolean
  | .number _ => some .number
  | .string _ => some .string
  | .array _ => some .array
  | .null => none
  | .object _ => none

/-- An object with these entries; of two with one name the later counts. -/
def ofEntries (entries : List (String × Value ν)) : Value ν := .object (Fields.ofList entries)

def step? : Value ν → Segment → Option (Value ν)
  | .object fields, .field name => fields.lookup name
  | .array items, .index position => items[position.toNat]?
  | _, _ => none

def get? (v : Value ν) (path : Path) : Option (Value ν) := path.segments.foldlM step? v

/-- Equality as expressions define it: strings, numbers and booleans are equal to their like, and
nothing else is equal to anything. -/
def scalarEqual [Arithmetic ν] : Value ν → Value ν → Bool
  | .string a, .string b => a == b
  | .number a, .number b => Arithmetic.equal a b
  | .boolean a, .boolean b => a == b
  | _, _ => false

mutual

/-- Equality of all parts, with numbers compared as numbers. -/
def same [Arithmetic ν] : Value ν → Value ν → Bool
  | .null, .null => true
  | .boolean a, .boolean b => a == b
  | .number a, .number b => Arithmetic.equal a b
  | .string a, .string b => a == b
  | .array a, .array b => sameItems a b
  | .object a, .object b => sameFields a b
  | _, _ => false

def sameItems [Arithmetic ν] : List (Value ν) → List (Value ν) → Bool
  | [], [] => true
  | a :: as, b :: bs => same a b && sameItems as bs
  | _, _ => false

def sameFields [Arithmetic ν] : List (String × Value ν) → List (String × Value ν) → Bool
  | [], [] => true
  | (name, a) :: as, (name', b) :: bs => name == name' && same a b && sameFields as bs
  | _, _ => false

end

theorem payload?_ofPayload (k : Kind) (x : Payload ν k) : payload? k (ofPayload k x) = some x := by
  cases k <;> rfl

end Value

end PathExpr
