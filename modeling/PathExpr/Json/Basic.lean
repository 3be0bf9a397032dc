import PathExpr.Context
import PathExpr.Decimal.Basic

set_option autoImplicit false

namespace PathExpr

/-- The entries of an object are kept in the order of their names (`Fields`). -/
inductive Json (N : Type) where
  | null
  | boolean (value : Bool)
  | number (value : N)
  | string (text : String)
  | array (items : List (Json N))
  | object (fields : List (String × Json N))

/-- What a library of documents does with their numbers. -/
class Json.Numbers (N : Type) where
  /-- The number as a double, if it can be given as one. -/
  toDouble? : N → Option Float
  ofInteger : Int64 → N
  /-- A double as a number, if there is such a number in documents. -/
  ofDouble? : Float → Option N

namespace Json

variable {N : Type}

def step? : Json N → Segment → Option (Json N)
  | .object fields, .field name => fields.lookup name
  | .array items, .index position => items[position.toNat]?
  | _, _ => none

def get? (document : Json N) (path : Path) : Option (Json N) := path.segments.foldlM step? document

variable [Numbers N]

mutual

/-- A document as a value. A number that is no double becomes null. -/
def toValue : Json N → Value Float
  | .null => .null
  | .boolean b => .boolean b
  | .number n =>
      match Numbers.toDouble? n with
      | some x => .number x
      | none => .null
  | .string s => .string s
  | .array items => .array (itemsToValue items)
  | .object fields => .object (fieldsToValue fields)

def itemsToValue : List (Json N) → List (Value Float)
  | [] => []
  | item :: rest => item.toValue :: itemsToValue rest

def fieldsToValue : List (String × Json N) → List (String × Value Float)
  | [] => []
  | (name, item) :: rest => (name, item.toValue) :: fieldsToValue rest

end

/-- A number as a part of a document: an integer if it is one, and null if documents have no such
number. -/
def ofDouble (x : Float) : Json N :=
  match Double.integer? x with
  | some i => .number (Numbers.ofInteger i)
  | none =>
      match Numbers.ofDouble? x with
      | some n => .number n
      | none => .null

mutual

def ofValue : Value Float → Json N
  | .null => .null
  | .boolean b => .boolean b
  | .number x => ofDouble x
  | .string s => .string s
  | .array items => .array (itemsOfValue items)
  | .object fields => .object (fieldsOfValue fields)

def itemsOfValue : List (Value Float) → List (Json N)
  | [] => []
  | item :: rest => ofValue item :: itemsOfValue rest

def fieldsOfValue : List (String × Value Float) → List (String × Json N)
  | [] => []
  | (name, item) :: rest => (name, ofValue item) :: fieldsOfValue rest

end

def payload? : (k : Kind) → Json N → Option (Payload Float k)
  | .number, .number n => Numbers.toDouble? n
  | .boolean, .boolean b => some b
  | .string, .string s => some s
  | .array, .array items => some (itemsToValue items)
  | _, _ => none

/-- A document as a context: every path starts at it. A lookup walks the document itself, and only
what it finds is turned into a value. -/
def context (document : Json N) : Context Float where
  lookup
    | none, path => (document.get? path).map toValue
    | some k, path => (document.get? path).bind (payload? k)

theorem itemsToValue_eq (items : List (Json N)) : itemsToValue items = items.map toValue := by
  induction items with
  | nil => rfl
  | cons item rest ih => simp only [itemsToValue, ih, List.map_cons]

end Json

end PathExpr
