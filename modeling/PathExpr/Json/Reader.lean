import PathExpr.Json.Number

set_option autoImplicit false

namespace PathExpr.Json

abbrev Read (α : Type) := α × List Char

def isBlank (c : Char) : Bool := c == ' ' || c == '\t' || c == '\n' || c == '\r'

def skipBlanks (chars : List Char) : List Char := chars.dropWhile isBlank

def hexDigit? (c : Char) : Option Nat :=
  if c.isDigit then some (c.toNat - '0'.toNat)
  else if 'a' ≤ c ∧ c ≤ 'f' then some (c.toNat - 'a'.toNat + 10)
  else if 'A' ≤ c ∧ c ≤ 'F' then some (c.toNat - 'A'.toNat + 10)
  else none

/-- Four hexadecimal digits. -/
def readUnit : List Char → Option (Read Nat)
  | a :: b :: c :: d :: rest => do
      let high := (← hexDigit? a) * 16 + (← hexDigit? b)
      let low := (← hexDigit? c) * 16 + (← hexDigit? d)
      return (high * 256 + low, rest)
  | _ => none

/-- The character that a code unit stands for. The first half of a pair needs the second half
behind it, and a second half alone stands for nothing. -/
def readCodePoint (chars : List Char) : Option (Read Char) := do
  let (first, rest) ← readUnit chars
  if first < 0xd800 ∨ 0xe000 ≤ first then return (Char.ofNat first, rest)
  else if 0xdc00 ≤ first then none
  else
    match rest with
    | '\\' :: 'u' :: rest =>
        let (second, rest) ← readUnit rest
        if 0xdc00 ≤ second ∧ second < 0xe000 then
          return (Char.ofNat (0x10000 + (first - 0xd800) * 0x400 + (second - 0xdc00)), rest)
        else none
    | _ => none

def readEscape : List Char → Option (Read Char)
  | '"' :: rest => some ('"', rest)
  | '\\' :: rest => some ('\\', rest)
  | '/' :: rest => some ('/', rest)
  | 'b' :: rest => some ('\x08', rest)
  | 'f' :: rest => some ('\x0c', rest)
  | 'n' :: rest => some ('\n', rest)
  | 'r' :: rest => some ('\r', rest)
  | 't' :: rest => some ('\t', rest)
  | 'u' :: rest => readCodePoint rest
  | _ => none

/-- The inside of a string and the quote that ends it. At most `bound` characters are left. -/
def readStringBody : Nat → List Char → Option (Read (List Char))
  | 0, _ => none
  | _, [] => none
  | bound + 1, c :: rest =>
      if c = '"' then some ([], rest)
      else if c = '\\' then do
        let (escaped, rest) ← readEscape rest
        let (body, rest) ← readStringBody bound rest
        return (escaped :: body, rest)
      else if c.toNat < 0x20 then none
      else do
        let (body, rest) ← readStringBody bound rest
        return (c :: body, rest)

def readString (chars : List Char) : Option (Read String) := do
  let (body, rest) ← readStringBody chars.length chars
  return (String.ofList body, rest)

def readDigits (chars : List Char) : Option (Read (List Char)) :=
  let digits := chars.takeWhile Char.isDigit
  if digits.isEmpty then none else some (digits, chars.dropWhile Char.isDigit)

def readFraction : List Char → Option (Read (Option (List Char)))
  | '.' :: rest => do
      let (digits, rest) ← readDigits rest
      return (some digits, rest)
  | chars => some (none, chars)

def readExponentDigits (negative : Bool) (chars : List Char) : Option (Read (Option Int)) := do
  let (digits, rest) ← readDigits chars
  let power : Int := Nat.ofDigitChars 10 digits 0
  return (some (if negative then -power else power), rest)

def readExponent : List Char → Option (Read (Option Int))
  | c :: rest =>
      if c = 'e' ∨ c = 'E' then
        match rest with
        | '-' :: rest => readExponentDigits true rest
        | '+' :: rest => readExponentDigits false rest
        | _ => readExponentDigits false rest
      else some (none, c :: rest)
  | [] => some (none, [])

/-- A number from its parts. Without point and exponent it is an integer if it fits; negative zero
is a double. -/
def numberOf? (negative : Bool) (whole : List Char) (fraction : Option (List Char))
    (exponent : Option Int) : Option Number :=
  let n := Nat.ofDigitChars 10 whole 0
  let i : Int := if negative then -n else n
  if fits : -0x8000000000000000 ≤ i ∧ i < 0x10000000000000000 ∧ fraction = none ∧ exponent = none ∧
      ¬(n = 0 ∧ negative = true) then
    some (.integer i fits.1 fits.2.1)
  else
    let x := (Decimal.ofDigits whole (fraction.getD []) (exponent.getD 0)).toDouble negative
    if finite : x.isFinite = true then some (.double x finite) else none

def readNumber (chars : List Char) : Option (Read Number) := do
  let (negative, unsigned) :=
    match chars with
    | '-' :: rest => (true, rest)
    | _ => (false, chars)
  let (whole, rest) ← readDigits unsigned
  if whole.head? = some '0' ∧ whole.length ≠ 1 then none
  else
    let (fraction, rest) ← readFraction rest
    let (exponent, rest) ← readExponent rest
    return (← numberOf? negative whole fraction exponent, rest)

/-- Items up to the closing bracket. At most `bound` characters are left. -/
def readItems (read : List Char → Option (Read (Json Number))) :
    Nat → List Char → Option (Read (List (Json Number)))
  | 0, _ => none
  | bound + 1, chars => do
      let (item, rest) ← read chars
      match skipBlanks rest with
      | ',' :: rest =>
          let (items, rest) ← readItems read bound rest
          return (item :: items, rest)
      | ']' :: rest => return ([item], rest)
      | _ => none

def readEntries (read : List Char → Option (Read (Json Number))) :
    Nat → List Char → Option (Read (List (String × Json Number)))
  | 0, _ => none
  | bound + 1, chars =>
      match skipBlanks chars with
      | '"' :: rest => do
          let (name, rest) ← readString rest
          match skipBlanks rest with
          | ':' :: rest =>
              let (item, rest) ← read rest
              match skipBlanks rest with
              | ',' :: rest =>
                  let (entries, rest) ← readEntries read bound rest
                  return ((name, item) :: entries, rest)
              | '}' :: rest => return ([(name, item)], rest)
              | _ => none
          | _ => none
      | _ => none

/-- A document with arrays and objects nested at most `depth` deep. -/
def read : Nat → List Char → Option (Read (Json Number))
  | depth, chars =>
      match skipBlanks chars with
      | 'n' :: 'u' :: 'l' :: 'l' :: rest => some (.null, rest)
      | 't' :: 'r' :: 'u' :: 'e' :: rest => some (.boolean true, rest)
      | 'f' :: 'a' :: 'l' :: 's' :: 'e' :: rest => some (.boolean false, rest)
      | '"' :: rest => do
          let (text, rest) ← readString rest
          return (.string text, rest)
      | '[' :: rest =>
          match depth with
          | 0 => none
          | depth + 1 =>
              match skipBlanks rest with
              | ']' :: rest => some (.array [], rest)
              | _ => do
                  let (items, rest) ← readItems (read depth) rest.length rest
                  return (.array items, rest)
      | '{' :: rest =>
          match depth with
          | 0 => none
          | depth + 1 =>
              match skipBlanks rest with
              | '}' :: rest => some (.object [], rest)
              | _ => do
                  let (entries, rest) ← readEntries (read depth) rest.length rest
                  return (.object (Fields.ofList entries), rest)
      | chars => do
          let (n, rest) ← readNumber chars
          return (.number n, rest)

/-- The document that a text spells, with nothing but blanks around it. Beyond the standard a number
has to have a nearest finite double, and of two entries of an object with one name the later counts.
-/
def parse? (text : String) : Option (Json Number) := do
  let (document, rest) ← read 127 text.toList
  if (skipBlanks rest).isEmpty then return document else none

inductive ReadFault where
  | notADocument
deriving Repr, DecidableEq

def ReadFault.message : ReadFault → String
  | notADocument => "the text is not a JSON document"

def parse (text : String) : Except ReadFault (Json Number) :=
  match parse? text with
  | some document => .ok document
  | none => .error .notADocument

end PathExpr.Json
