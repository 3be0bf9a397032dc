set_option autoImplicit false

namespace PathExpr

/-- An expression either has one of these kinds, or its kind is only known once it has been
evaluated; `Option Kind` stands for both, with `none` for the second. -/
inductive Kind where
  | number
  | boolean
  | string
  | array
deriving Repr, DecidableEq

def Kind.name : Kind → String
  | .number => "number"
  | .boolean => "boolean"
  | .string => "string"
  | .array => "array"

end PathExpr
