import PathExpr.Token.Progress

set_option autoImplicit false

namespace PathExpr

namespace Cursor

variable {α : Type}

/-- The same elements are left, behind `n` more. -/
def shift (n : Nat) (c : Cursor α) : Cursor α := ⟨c.rest, c.position + n⟩

@[simp] theorem position_shift (n : Nat) (c : Cursor α) :
    (c.shift n).position = c.position + n := rfl

@[simp] theorem rest_shift (n : Nat) (c : Cursor α) : (c.shift n).rest = c.rest := rfl

@[simp] theorem peek?_shift (n : Nat) (c : Cursor α) : (c.shift n).peek? = c.peek? := rfl

@[simp] theorem advance_shift (n : Nat) (c : Cursor α) :
    (c.shift n).advance = c.advance.shift n := by
  obtain ⟨rest, position⟩ := c
  cases rest with
  | nil => rfl
  | cons x rest => simp [shift, Nat.add_right_comm]

@[simp] theorem span_shift (p : α → Bool) (n : Nat) (c : Cursor α) :
    (c.shift n).span p = ((c.span p).1, (c.span p).2.shift n) := by
  simp [span, shift, Nat.add_right_comm]

end Cursor

namespace Token

def Fault.shift (n : Nat) : Fault → Fault
  | unexpectedEnd position => unexpectedEnd (position + n)
  | unexpectedChar found position => unexpectedChar found (position + n)
  | unexpectedAfter found after position => unexpectedAfter found after (position + n)
  | invalidKeyStart found position => invalidKeyStart found (position + n)
  | invalidNumber text position => invalidNumber text (position + n)
  | unknownWord name position => unknownWord name (position + n)
  | invalidEscape found position => invalidEscape found (position + n)

namespace Scanned

variable {α β : Type}

def shift (n : Nat) (s : Scanned α) : Scanned α := (s.1.mapError (Fault.shift n), s.2.shift n)

@[simp] theorem shift_ok (n : Nat) (a : α) (after : Cursor Char) :
    shift n ((.ok a, after) : Scanned α) = (.ok a, after.shift n) := rfl

theorem shift_map (n : Nat) (s : Scanned α) (f : α → β) :
    (s.map f).shift n = (s.shift n).map f := by
  obtain ⟨result, after⟩ := s
  cases result <;> rfl

theorem shift_andThen (n : Nat) (s : Scanned α) {next : α → Cursor Char → Scanned β}
    (onward : ∀ a after, next a (after.shift n) = (next a after).shift n) :
    (s.andThen next).shift n = (s.shift n).andThen next := by
  obtain ⟨result, after⟩ := s
  cases result with
  | ok a => exact (onward a after).symm
  | error fault => rfl

end Scanned

theorem scanQuotedFrom_quote (position : Nat) (rest : List Char) :
    scanQuotedFrom position ('\'' :: rest) = (.ok [], ⟨rest, position + 1⟩) := by
  rw [scanQuotedFrom.eq_def]
  dsimp only
  rw [if_pos rfl]

theorem scanQuotedFrom_backslash (position : Nat) (escaped : Char) (rest : List Char) :
    scanQuotedFrom position ('\\' :: escaped :: rest) =
      if Text.isEscaped escaped then
        (scanQuotedFrom (position + 2) rest).map (escaped :: ·)
      else (.error (.invalidEscape escaped (position + 1)), ⟨rest, position + 2⟩) := by
  rw [scanQuotedFrom.eq_def]
  dsimp only
  rw [if_neg (by decide), if_pos rfl]

theorem scanQuotedFrom_other {c : Char} (noQuote : c ≠ '\'') (noBackslash : c ≠ '\\')
    (position : Nat) (rest : List Char) :
    scanQuotedFrom position (c :: rest) = (scanQuotedFrom (position + 1) rest).map (c :: ·) := by
  rw [scanQuotedFrom.eq_def]
  dsimp only
  rw [if_neg noQuote, if_neg noBackslash]

section

variable (n : Nat) (c : Cursor Char)

theorem scanQuotedFrom_shift (position : Nat) (chars : List Char) :
    scanQuotedFrom (position + n) chars = (scanQuotedFrom position chars).shift n := by
  fun_induction scanQuotedFrom position chars with
  | case1 => rfl
  | case2 position rest =>
      rw [scanQuotedFrom_quote, Nat.add_right_comm]
      rfl
  | case3 position =>
      show ((.error (.unexpectedEnd (position + n + 1)), _) : Scanned _) = _
      rw [Nat.add_right_comm]
      rfl
  | case4 position escaped rest isEscaped _ ih =>
      rw [scanQuotedFrom_backslash, if_pos isEscaped, Nat.add_right_comm, ih, Scanned.shift_map]
  | case5 position escaped rest notEscaped =>
      rw [scanQuotedFrom_backslash, if_neg notEscaped, Nat.add_right_comm,
        Nat.add_right_comm position n 2]
      rfl
  | case6 position c rest noQuote noBackslash ih =>
      rw [scanQuotedFrom_other noQuote noBackslash, Nat.add_right_comm, ih, Scanned.shift_map]

theorem scanQuoted_shift : scanQuoted (c.shift n) = (scanQuoted c).shift n := by
  unfold scanQuoted
  rw [Scanned.shift_map, ← scanQuotedFrom_shift]
  rfl

theorem scanNumeral_shift (negative : Bool) :
    scanNumeral negative (c.shift n) =
      ((scanNumeral negative c).1, (scanNumeral negative c).2.shift n) := by
  unfold scanNumeral
  simp only [Cursor.span_shift, Cursor.peek?_shift, Cursor.advance_shift]
  split <;> rfl

theorem scanNumber_shift (negative : Bool) (start : Nat) :
    scanNumber negative (start + n) (c.shift n) = (scanNumber negative start c).shift n := by
  unfold scanNumber
  simp only [scanNumeral_shift]
  split <;> rfl

theorem scanWord_shift : scanWord (c.shift n) = (scanWord c).shift n := by
  unfold scanWord
  simp only [Cursor.span_shift, Cursor.position_shift]
  split <;> rfl

theorem scanClosing_shift (wanted : Char) :
    scanClosing wanted (c.shift n) = (scanClosing wanted c).shift n := by
  unfold scanClosing
  simp only [Cursor.peek?_shift, Cursor.advance_shift, Cursor.position_shift]
  split
  · rfl
  · split <;> rfl

theorem scanField_shift : scanField (c.shift n) = (scanField c).shift n := by
  unfold scanField
  simp only [Cursor.peek?_shift, Cursor.advance_shift, Cursor.position_shift, Cursor.span_shift]
  split
  · rfl
  · split <;> rfl

theorem scanBracketed_shift : scanBracketed (c.shift n) = (scanBracketed c).shift n := by
  unfold scanBracketed
  rw [Scanned.shift_andThen]
  · simp only [Cursor.peek?_shift, Cursor.advance_shift, Cursor.position_shift,
      scanNumeral_shift, scanQuoted_shift]
    congr 1
    split
    · rfl
    · split
      · rw [Scanned.shift_map]
      · split
        · split <;> rfl
        · rfl
  · intro segment after
    rw [scanClosing_shift, Scanned.shift_map]

theorem scanSegment?_shift :
    scanSegment? (c.shift n) = (scanSegment? c).map (Scanned.shift n) := by
  unfold scanSegment?
  simp only [Cursor.peek?_shift, Cursor.advance_shift]
  split
  · rw [scanField_shift]
    rfl
  · rw [scanBracketed_shift]
    rfl
  · rfl

theorem scanSegmentsWithin_shift (bound : Nat) :
    scanSegmentsWithin bound (c.shift n) = (scanSegmentsWithin bound c).shift n := by
  induction bound generalizing c with
  | zero => rfl
  | succ bound ih =>
      unfold scanSegmentsWithin
      rw [scanSegment?_shift]
      cases scanSegment? c with
      | none => rfl
      | some step =>
          dsimp only [Option.map_some]
          rw [Scanned.shift_andThen]
          intro segment after
          rw [ih, Scanned.shift_map]

theorem scanOperator_shift (first : Char) :
    scanOperator first (c.shift n) = (scanOperator first c).shift n := by
  unfold scanOperator
  simp only [Cursor.peek?_shift, Cursor.advance_shift, Cursor.position_shift]
  split
  · rfl
  · rfl
  · split <;> rfl
  · split
    · rfl
    · split <;> rfl

theorem scanToken_shift (first : Char) :
    scanToken first (c.shift n) = (scanToken first c).shift n := by
  unfold scanToken scanSegments
  simp only [Cursor.peek?_shift, Cursor.advance_shift, Cursor.position_shift, Cursor.rest_shift,
    scanSegmentsWithin_shift, scanQuoted_shift, scanNumber_shift, scanWord_shift,
    scanOperator_shift, ← Scanned.shift_map]
  split
  · rfl
  · split
    · rfl
    · split
      · rfl
      · split
        · rfl
        · split <;> rfl

theorem next_shift : next (c.shift n) = (next c).shift n := by
  unfold next
  simp only [Cursor.span_shift, Cursor.peek?_shift]
  split
  · rfl
  · rw [scanToken_shift, Scanned.shift_map]

theorem scanWithin_shift (bound : Nat) :
    scanWithin bound (c.shift n) = (scanWithin bound c).mapError (Fault.shift n) := by
  induction bound generalizing c with
  | zero => rfl
  | succ bound ih =>
      unfold scanWithin
      rw [next_shift]
      obtain ⟨result, after⟩ := next c
      cases result with
      | error fault => rfl
      | ok token? =>
          cases token? with
          | none => rfl
          | some token =>
              dsimp only [Scanned.shift_ok]
              rw [ih]
              cases scanWithin bound after <;> rfl

end

end Token

end PathExpr
