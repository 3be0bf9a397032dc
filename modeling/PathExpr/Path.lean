import PathExpr.Text.Quoted
import PathExpr.Text.Word

set_option autoImplicit false

namespace PathExpr

/-- One step of a path. Positions are machine words. -/
inductive Segment where
  | field (name : String)
  | index (position : UInt64)
deriving Repr, DecidableEq

/-- A name that is a word follows a point; any other is quoted between brackets. -/
def Segment.text : Segment → String
  | .field name =>
      if Text.isWord name.toList then "." ++ name else "[" ++ Text.quote name ++ "]"
  | .index position => "[" ++ String.ofList (Nat.toDigits 10 position.toNat) ++ "]"

/-- The steps in order. No steps lead to the data itself. -/
structure Path where
  segments : List Segment
deriving Repr, DecidableEq

namespace Path

def root : Path := ⟨[]⟩

def isRoot (path : Path) : Bool := path.segments.isEmpty

def push (path : Path) (segment : Segment) : Path := ⟨path.segments ++ [segment]⟩

def text (path : Path) : String := "$" ++ String.join (path.segments.map Segment.text)

end Path

end PathExpr
