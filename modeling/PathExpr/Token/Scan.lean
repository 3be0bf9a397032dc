import PathExpr.Cursor
import PathExpr.Text.Blank
import PathExpr.Token.Basic
import PathExpr.Token.Fault
import PathExpr.Token.Numeral

set_option autoImplicit false

namespace PathExpr.Token

/-- What was read or why it could not be, and the cursor behind the last character taken. -/
abbrev Scanned (α : Type) := Except Fault α × Cursor Char

namespace Scanned

variable {α β : Type}

def map (f : α → β) (s : Scanned α) : Scanned β := (s.1.map f, s.2)

def andThen (s : Scanned α) (next : α → Cursor Char → Scanned β) : Scanned β :=
  match s with
  | (.ok a, c) => next a c
  | (.error fault, c) => (.error fault, c)

end Scanned

/-- The inside of a quoted text and the quote that ends it, read from the characters at
`position`. -/
def scanQuotedFrom (position : Nat) : List Char → Scanned (List Char)
  | [] => (.error (.unexpectedEnd position), ⟨[], position⟩)
  | c :: rest =>
      if c = '\'' then (.ok [], ⟨rest, position + 1⟩)
      else if c = '\\' then
        match rest with
        | [] => (.error (.unexpectedEnd (position + 1)), ⟨[], position + 1⟩)
        | escaped :: rest =>
            if Text.isEscaped escaped then
              (scanQuotedFrom (position + 2) rest).map (escaped :: ·)
            else (.error (.invalidEscape escaped (position + 1)), ⟨rest, position + 2⟩)
      else (scanQuotedFrom (position + 1) rest).map (c :: ·)

def scanQuoted (c : Cursor Char) : Scanned String :=
  (scanQuotedFrom c.position c.rest).map String.ofList

/-- Reads as many digits as there are, and one point among them. -/
def scanNumeral (negative : Bool) (c : Cursor Char) : Numeral × Cursor Char :=
  let (whole, c) := c.span Char.isDigit
  if c.peek? = some '.' then
    let (fraction, c) := c.advance.span Char.isDigit
    (⟨negative, whole, some fraction⟩, c)
  else (⟨negative, whole, none⟩, c)

/-- Reads a number whose text begins at `start` and whose digits begin at the cursor. -/
def scanNumber (negative : Bool) (start : Nat) (c : Cursor Char) : Scanned Token :=
  let (numeral, c) := scanNumeral negative c
  if numeral.value.isFinite then (.ok (.number numeral.value), c)
  else (.error (.invalidNumber numeral.text start), c)

def keywords : List (String × Token) := [
  ("true", .boolean true),
  ("false", .boolean false),
  ("sum", .function (.fold .sum)),
  ("product", .function (.fold .product)),
  ("length", .function .length),
  ("and", .logical .and .word),
  ("or", .logical .or .word)]

def scanWord (c : Cursor Char) : Scanned Token :=
  let (word, after) := c.span Text.isWordChar
  match keywords.lookup (String.ofList word) with
  | some token => (.ok token, after)
  | none => (.error (.unknownWord (String.ofList word) c.position), after)

def scanClosing (wanted : Char) (c : Cursor Char) : Scanned Unit :=
  match c.peek? with
  | none => (.error (.unexpectedEnd c.position), c)
  | some found =>
      if found = wanted then (.ok (), c.advance)
      else (.error (.unexpectedChar found c.position), c.advance)

def scanField (c : Cursor Char) : Scanned Segment :=
  match c.peek? with
  | none => (.error (.unexpectedEnd c.position), c)
  | some first =>
      if Text.isWordStart first then
        let (name, after) := c.span Text.isWordChar
        (.ok (.field (String.ofList name)), after)
      else (.error (.invalidKeyStart first c.position), c.advance)

def scanBracketed (c : Cursor Char) : Scanned Segment :=
  let inside : Scanned Segment :=
    match c.peek? with
    | none => (.error (.unexpectedEnd c.position), c)
    | some first =>
        if first = '\'' then (scanQuoted c.advance).map .field
        else if first.isDigit then
          let (numeral, after) := scanNumeral false c
          match numeral.index? with
          | some position => (.ok (.index position), after)
          | none => (.error (.invalidNumber numeral.text c.position), after)
        else (.error (.unexpectedChar first c.position), c.advance)
  inside.andThen fun segment after => (scanClosing ']' after).map fun _ => segment

def scanSegment? (c : Cursor Char) : Option (Scanned Segment) :=
  match c.peek? with
  | some '.' => some (scanField c.advance)
  | some '[' => some (scanBracketed c.advance)
  | _ => none

/-- Reads the steps of a path up to the first character that begins none. At most `bound` characters
are left; with none left there is nothing to read, so a bound of zero gives the true answer. -/
def scanSegmentsWithin : Nat → Cursor Char → Scanned (List Segment)
  | 0, c => (.ok [], c)
  | bound + 1, c =>
      match scanSegment? c with
      | none => (.ok [], c)
      | some step =>
          step.andThen fun segment after => (scanSegmentsWithin bound after).map (segment :: ·)

def scanSegments (c : Cursor Char) : Scanned (List Segment) := scanSegmentsWithin c.rest.length c

/-- What a character that begins an operator stands for. -/
inductive Opening where
  | alone (token : Token)
  /-- One comparison by itself and another with `=` behind it. -/
  | perhapsEqual (strict weak : Comparison)
  /-- The character has to come twice. -/
  | twice (token : Token)

def opening? : Char → Option Opening
  | '?' => some (.alone .otherwise)
  | '+' => some (.alone .plus)
  | '-' => some (.alone .minus)
  | '*' => some (.alone .star)
  | '/' => some (.alone .slash)
  | '!' => some (.alone .not)
  | '(' => some (.alone .leftParen)
  | ')' => some (.alone .rightParen)
  | ',' => some (.alone .comma)
  | '<' => some (.perhapsEqual .less .lessEqual)
  | '>' => some (.perhapsEqual .greater .greaterEqual)
  | '=' => some (.twice .equal)
  | '&' => some (.twice (.logical .and .symbol))
  | '|' => some (.twice (.logical .or .symbol))
  | _ => none

def scanOperator (first : Char) (c : Cursor Char) : Scanned Token :=
  let after := c.advance
  match opening? first with
  | none => (.error (.unexpectedChar first c.position), after)
  | some (.alone token) => (.ok token, after)
  | some (.perhapsEqual strict weak) =>
      if after.peek? = some '=' then (.ok (.comparison weak), after.advance)
      else (.ok (.comparison strict), after)
  | some (.twice token) =>
      match after.peek? with
      | none => (.error (.unexpectedEnd after.position), after)
      | some second =>
          if second = first then (.ok token, after.advance)
          else (.error (.unexpectedAfter second first after.position), after.advance)

/-- Reads the token that begins with `first`, where the cursor is. A minus sign right before a
digit belongs to the number. -/
def scanToken (first : Char) (c : Cursor Char) : Scanned Token :=
  if first = '$' then (scanSegments c.advance).map fun segments => .path ⟨segments⟩
  else if first = '\'' then (scanQuoted c.advance).map .string
  else if first.isDigit then scanNumber false c.position c
  else if first = '-' ∧ c.advance.peek?.any Char.isDigit then
    scanNumber true c.position c.advance
  else if Text.isWordStart first then scanWord c
  else scanOperator first c

/-- Skips blanks and reads one token, or nothing at the end. Behind a fault reading can go on from
where it stopped. -/
def next (c : Cursor Char) : Scanned (Option Token) :=
  let c := (c.span Text.isBlank).2
  match c.peek? with
  | none => (.ok none, c)
  | some first => (scanToken first c).map some

/-- Reads tokens until the text ends, or up to the first fault. At most `bound` characters are
left. -/
def scanWithin : Nat → Cursor Char → Except Fault (List Token)
  | 0, _ => .ok []
  | bound + 1, c =>
      match next c with
      | (.ok none, _) => .ok []
      | (.ok (some token), after) => (scanWithin bound after).map (token :: ·)
      | (.error fault, _) => .error fault

def scanAll (c : Cursor Char) : Except Fault (List Token) := scanWithin c.rest.length c

def scan (text : String) : Except Fault (List Token) := scanAll (Cursor.ofList text.toList)

end PathExpr.Token
