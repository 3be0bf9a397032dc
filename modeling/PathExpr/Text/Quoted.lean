set_option autoImplicit false

namespace PathExpr.Text

def isEscaped (c : Char) : Bool := c == '\'' || c == '\\'

/-- The inside of a quoted text: a quote or a backslash gets a backslash in front, and everything
else stands for itself. -/
def escape : List Char → List Char
  | [] => []
  | c :: rest => if isEscaped c then '\\' :: c :: escape rest else c :: escape rest

def quote (text : String) : String := String.ofList ('\'' :: (escape text.toList ++ ['\'']))

end PathExpr.Text
