import PathExpr.Decimal.Layout
import PathExpr.Json.Number

set_option autoImplicit false

namespace PathExpr.Json

inductive Form where
  | compact
  | pretty
deriving Repr, DecidableEq

/-- Numbers from `10 ^ -5` up to `10 ^ 16` are written without an exponent. -/
def numberStyle : Decimal.Style := ⟨.even, fun exponent => -5 ≤ exponent && exponent < 16, true⟩

def Number.text : Number → String
  | integer i _ _ => toString i
  | double x _ => String.ofList (numberStyle.write x)

/-- Quotes, backslashes and control characters are escaped, and nothing else. -/
def escapeChar (c : Char) : List Char :=
  if c = '"' then ['\\', '"']
  else if c = '\\' then ['\\', '\\']
  else if c = '\x08' then ['\\', 'b']
  else if c = '\x0c' then ['\\', 'f']
  else if c = '\n' then ['\\', 'n']
  else if c = '\r' then ['\\', 'r']
  else if c = '\t' then ['\\', 't']
  else if c.toNat < 0x20 then
    ['\\', 'u', '0', '0', Nat.digitChar (c.toNat / 16), Nat.digitChar (c.toNat % 16)]
  else [c]

def quote (text : String) : String :=
  String.ofList ('"' :: (text.toList.flatMap escapeChar ++ ['"']))

def newline (depth : Nat) : String := "\n" ++ String.ofList (List.replicate (2 * depth) ' ')

def bracketed (form : Form) (depth : Nat) (opening closing : String) (items : List String) :
    String :=
  if items.isEmpty then opening ++ closing
  else
    match form with
    | .compact => opening ++ String.intercalate "," items ++ closing
    | .pretty =>
        opening ++ newline (depth + 1) ++ String.intercalate ("," ++ newline (depth + 1)) items ++
          newline depth ++ closing

def colon : Form → String
  | .compact => ":"
  | .pretty => ": "

mutual

/-- A document that is nested `depth` deep. -/
def write (form : Form) (depth : Nat) : Json Number → String
  | .null => "null"
  | .boolean true => "true"
  | .boolean false => "false"
  | .number n => n.text
  | .string s => quote s
  | .array items => bracketed form depth "[" "]" (writeItems form (depth + 1) items)
  | .object fields => bracketed form depth "\x7b" "\x7d" (writeFields form (depth + 1) fields)

def writeItems (form : Form) (depth : Nat) : List (Json Number) → List String
  | [] => []
  | item :: rest => write form depth item :: writeItems form depth rest

def writeFields (form : Form) (depth : Nat) : List (String × Json Number) → List String
  | [] => []
  | (name, item) :: rest =>
      (quote name ++ colon form ++ write form depth item) :: writeFields form depth rest

end

def text (form : Form) (document : Json Number) : String := document.write form 0

end PathExpr.Json
