import Mathlib.Logic.Function.Iterate
import PathExpr.Proofs.Lexical.Faults
import PathExpr.Proofs.Lexical.Shifted

set_option autoImplicit false

namespace PathExpr

namespace Cursor

variable {α : Type} {first second : Cursor α}

theorem Reaches.position_le (reached : first.Reaches second) :
    first.position ≤ second.position := by
  obtain ⟨run, -, position⟩ := reached
  omega

theorem position_lt_of_advance_reaches {x : α} (isFirst : first.peek? = some x)
    (reached : first.advance.Reaches second) : first.position < second.position := by
  have moved := reached.position_le
  rw [advance_position isFirst] at moved
  exact moved

end Cursor

namespace Token

open Scanned (OnFault)

/-- Nothing is left behind a fault that reports the end. Any other fault reports something that the
reader has passed. -/
def Fault.StopsAt (fault : Fault) (after : Cursor Char) : Prop :=
  match fault with
  | unexpectedEnd _ => after.rest = []
  | _ => fault.position < after.position

theorem Fault.StopsAt.position_lt {fault : Fault} {after : Cursor Char}
    (stops : fault.StopsAt after) (more : after.rest ≠ []) : fault.position < after.position := by
  cases fault with
  | unexpectedEnd position => exact absurd stops more
  | _ => exact stops

section

variable {α : Type} {c : Cursor Char}

theorem stops_atEnd (isEnd : c.peek? = none) (position : Nat) :
    OnFault Fault.StopsAt ((.error (.unexpectedEnd position), c) : Scanned α) :=
  .error c (List.head?_eq_none_iff.1 isEnd)

theorem stops_atChar {found : Char} (isFirst : c.peek? = some found) :
    OnFault Fault.StopsAt
      ((.error (.unexpectedChar found c.position), c.advance) : Scanned α) :=
  .error c.advance (Cursor.position_lt_of_advance_reaches isFirst (.refl _))

theorem scanQuotedFrom_stops (position : Nat) (chars : List Char) :
    (scanQuotedFrom position chars).OnFault Fault.StopsAt := by
  fun_induction scanQuotedFrom position chars with
  | case1 => exact .error _ rfl
  | case2 => exact .ok _ _
  | case3 => exact .error _ rfl
  | case4 _ _ _ _ _ ih => exact ih.map _
  | case5 position => exact .error _ (Nat.lt_succ_self (position + 1))
  | case6 _ _ _ _ _ ih => exact ih.map _

theorem scanQuoted_stops (c : Cursor Char) : (scanQuoted c).OnFault Fault.StopsAt :=
  (scanQuotedFrom_stops c.position c.rest).map _

/-- A number is reported where its text begins, which lies before its last digit. -/
theorem scanNumber_stops {negative : Bool} {start : Nat}
    (passed : start < (scanNumeral negative c).2.position) :
    (scanNumber negative start c).OnFault Fault.StopsAt := by
  unfold scanNumber
  dsimp only
  split
  · exact .ok _ _
  · exact .error _ passed

theorem scanWord_stops {first : Char} (isFirst : c.peek? = some first)
    (start : Text.isWordStart first = true) : (scanWord c).OnFault Fault.StopsAt := by
  obtain ⟨rest, isCons⟩ := Cursor.peek?_eq_some isFirst
  have passed := Cursor.position_lt_of_advance_reaches isFirst
    (Cursor.advance_reaches_span isCons (Text.isWordChar_of_isWordStart first start))
  unfold scanWord
  dsimp only
  split
  · exact .ok _ _
  · exact .error _ passed

theorem scanClosing_stops (wanted : Char) (c : Cursor Char) :
    (scanClosing wanted c).OnFault Fault.StopsAt := by
  unfold scanClosing
  split
  · rename_i isEnd
    exact stops_atEnd isEnd _
  · rename_i found isFirst
    split
    · exact .ok _ _
    · exact stops_atChar isFirst

theorem scanField_stops (c : Cursor Char) : (scanField c).OnFault Fault.StopsAt := by
  unfold scanField
  split
  · rename_i isEnd
    exact stops_atEnd isEnd _
  · rename_i first isFirst
    split
    · exact .ok _ _
    · exact .error _ (Cursor.position_lt_of_advance_reaches isFirst (.refl _))

theorem scanBracketed_stops (c : Cursor Char) : (scanBracketed c).OnFault Fault.StopsAt := by
  refine OnFault.andThen ?_ fun _ _ => (scanClosing_stops ']' _).map _
  split
  · rename_i isEnd
    exact stops_atEnd isEnd _
  · rename_i first isFirst
    split
    · exact (scanQuoted_stops c.advance).map _
    · split
      · rename_i digit
        obtain ⟨rest, isCons⟩ := Cursor.peek?_eq_some isFirst
        have passed : c.position < (scanNumeral false c).2.position :=
          Cursor.position_lt_of_advance_reaches isFirst (advance_reaches_scanNumeral isCons digit)
        dsimp only
        split
        · exact .ok _ _
        · exact .error _ passed
      · exact stops_atChar isFirst

theorem scanSegment?_stops {s : Scanned Segment} (scanned : scanSegment? c = some s) :
    s.OnFault Fault.StopsAt := by
  unfold scanSegment? at scanned
  split at scanned
  · cases scanned
    exact scanField_stops c.advance
  · cases scanned
    exact scanBracketed_stops c.advance
  · cases scanned

theorem scanSegmentsWithin_stops (bound : Nat) (c : Cursor Char) :
    (scanSegmentsWithin bound c).OnFault Fault.StopsAt := by
  induction bound generalizing c with
  | zero => exact .ok _ _
  | succ bound ih =>
      unfold scanSegmentsWithin
      split
      · exact .ok _ _
      · rename_i step scanned
        exact (scanSegment?_stops scanned).andThen fun _ _ => (ih _).map _

theorem scanOperator_stops {first : Char} (isFirst : c.peek? = some first) :
    (scanOperator first c).OnFault Fault.StopsAt := by
  unfold scanOperator
  dsimp only
  split
  · exact stops_atChar isFirst
  · exact .ok _ _
  · split <;> exact .ok _ _
  · split
    · rename_i isEnd
      exact stops_atEnd isEnd _
    · rename_i second isSecond
      split
      · exact .ok _ _
      · exact .error _ (Cursor.position_lt_of_advance_reaches isSecond (.refl _))

theorem scanToken_stops {first : Char} (isFirst : c.peek? = some first) :
    (scanToken first c).OnFault Fault.StopsAt := by
  obtain ⟨rest, isCons⟩ := Cursor.peek?_eq_some isFirst
  unfold scanToken
  split
  · exact (scanSegmentsWithin_stops _ _).map _
  · split
    · exact (scanQuoted_stops _).map _
    · split
      · rename_i digit
        exact scanNumber_stops (Cursor.position_lt_of_advance_reaches isFirst
          (advance_reaches_scanNumeral isCons digit))
      · split
        · exact scanNumber_stops (Cursor.position_lt_of_advance_reaches isFirst
            (reaches_scanNumeral true c.advance))
        · split
          · rename_i start
            exact scanWord_stops isFirst start
          · exact scanOperator_stops isFirst

theorem next_stops (c : Cursor Char) : (next c).OnFault Fault.StopsAt := by
  unfold next
  dsimp only
  split
  · exact .ok _ _
  · rename_i first isFirst
    exact (scanToken_stops isFirst).map _

theorem next_position_lt (moved : (next c).1 ≠ .ok none) :
    c.position < (next c).2.position := by
  have shorter := next_length_lt moved
  have whole := (reaches_next c).position_add_length
  omega

theorem Fault.position_shift (n : Nat) (fault : Fault) :
    (fault.shift n).position = fault.position + n := by
  cases fault <;> rfl

/-- A fault reports nothing before the cursor: the same characters at the beginning of a text give
the same fault that many positions earlier. -/
theorem position_le_of_next {fault : Fault} (failed : (next c).1 = .error fault) :
    c.position ≤ fault.position := by
  have shifted : (Cursor.mk c.rest 0).shift c.position = c := by
    rw [Cursor.shift, Nat.zero_add]
  rw [← shifted, next_shift] at failed
  cases step : next ⟨c.rest, 0⟩ with
  | mk result after =>
      rw [step] at failed
      cases result with
      | ok token? => cases failed
      | error earlier =>
          cases failed
          rw [Fault.position_shift]
          exact Nat.le_add_left _ _

theorem rest_eq_nil_of_next (isNone : (next c).1 = .ok none) : (next c).2.rest = [] := by
  unfold next at isNone ⊢
  dsimp only at isNone ⊢
  split at isNone
  · rename_i isEnd
    exact List.head?_eq_none_iff.1 isEnd
  · obtain ⟨token, -, isToken⟩ := Scanned.map_eq_ok.1 (Prod.ext isNone rfl)
    cases isToken

end

/-- The cursor when `n` tokens or faults have been asked for, whatever the answers were. -/
def cursorAfter (n : Nat) (c : Cursor Char) : Cursor Char := (fun c => (next c).2)^[n] c

/-- What the call behind `n` others answers. -/
def answerAfter (n : Nat) (c : Cursor Char) : Except Fault (Option Token) :=
  (next (cursorAfter n c)).1

section

variable {m n : Nat} {c : Cursor Char}

theorem cursorAfter_succ (n : Nat) (c : Cursor Char) :
    cursorAfter (n + 1) c = (next (cursorAfter n c)).2 :=
  Function.iterate_succ_apply' _ n c

theorem answerAfter_succ (n : Nat) (c : Cursor Char) :
    answerAfter (n + 1) c = answerAfter n (next c).2 := rfl

theorem cursorAfter_reaches (c : Cursor Char) (notLater : m ≤ n) :
    (cursorAfter m c).Reaches (cursorAfter n c) := by
  induction notLater with
  | refl => exact .refl _
  | step _ ih =>
      rw [cursorAfter_succ]
      exact ih.trans (reaches_next _)

/-- No character is lost. -/
theorem position_add_length_cursorAfter (n : Nat) (c : Cursor Char) :
    (cursorAfter n c).position + (cursorAfter n c).rest.length = c.position + c.rest.length :=
  (cursorAfter_reaches c (Nat.zero_le n)).position_add_length

theorem answerAfter_of_rest_eq_nil (isEnd : (cursorAfter m c).rest = []) (notLater : m ≤ n) :
    answerAfter n c = .ok none := by
  have shorter := (cursorAfter_reaches c notLater).length_le
  rw [isEnd] at shorter
  have empty : (cursorAfter n c).rest = [] := List.length_eq_zero_iff.1 (Nat.le_zero.1 shorter)
  unfold answerAfter
  generalize cursorAfter n c = stop at empty
  obtain ⟨rest, position⟩ := stop
  cases empty
  exact congrArg Prod.fst (next_nil position)

theorem cursorAfter_rest_eq_nil
    (isLast : answerAfter m c = .ok none ∨
      ∃ position, answerAfter m c = .error (.unexpectedEnd position)) :
    (cursorAfter (m + 1) c).rest = [] := by
  rw [cursorAfter_succ]
  obtain isNone | ⟨position, isEnd⟩ := isLast
  · exact rest_eq_nil_of_next isNone
  · exact next_stops _ _ isEnd

theorem answerAfter_of_none (isNone : answerAfter m c = .ok none) (notLater : m ≤ n) :
    answerAfter n c = .ok none := by
  obtain rfl | later := notLater.eq_or_lt
  · exact isNone
  · exact answerAfter_of_rest_eq_nil (cursorAfter_rest_eq_nil (.inl isNone)) later

/-- Faults come in the order of the text. -/
theorem position_lt_of_answerAfter {fault fault' : Fault} (earlier : m < n)
    (failed : answerAfter m c = .error fault) (failed' : answerAfter n c = .error fault') :
    fault.position < fault'.position := by
  -- A fault that reports the end would be the last one, so the first fault was passed.
  have more : (cursorAfter (m + 1) c).rest ≠ [] := by
    intro isEnd
    rw [answerAfter_of_rest_eq_nil isEnd earlier] at failed'
    cases failed'
  have onward := (cursorAfter_reaches c (Nat.succ_le_of_lt earlier)).position_le
  rw [cursorAfter_succ] at more onward
  calc
    fault.position < (next (cursorAfter m c)).2.position := (next_stops _ _ failed).position_lt more
    _ ≤ (cursorAfter n c).position := onward
    _ ≤ fault'.position := position_le_of_next failed'

/-- Calls that all give a token or a fault take a character each. -/
theorem position_add_le_cursorAfter (goesOn : ∀ m < n, answerAfter m c ≠ .ok none) :
    c.position + n ≤ (cursorAfter n c).position := by
  induction n with
  | zero => exact Nat.le_refl _
  | succ n ih =>
      have before := ih fun m earlier => goesOn m (Nat.lt_succ_of_lt earlier)
      have moved := next_position_lt (goesOn n (Nat.lt_succ_self n))
      rw [cursorAfter_succ]
      omega

theorem exists_answerAfter_eq_none (c : Cursor Char) :
    ∃ n ≤ c.rest.length, answerAfter n c = .ok none := by
  by_contra goesOn
  push Not at goesOn
  have taken : c.position + (c.rest.length + 1) ≤ (cursorAfter (c.rest.length + 1) c).position :=
    position_add_le_cursorAfter fun n earlier => goesOn n (Nat.le_of_lt_succ earlier)
  have whole := position_add_length_cursorAfter (c.rest.length + 1) c
  omega

/-- What calls from the cursor come to: their tokens, if they give nothing else up to the end, and
otherwise the first fault. -/
def Yields (c : Cursor Char) : Except Fault (List Token) → Prop
  | .ok tokens => ∀ n, answerAfter n c = .ok tokens[n]?
  | .error fault =>
      ∃ n, answerAfter n c = .error fault ∧ ∀ m < n, ∃ token, answerAfter m c = .ok (some token)

theorem le_of_tokens_before {fault : Fault} (failed : answerAfter n c = .error fault)
    (before : ∀ k < m, ∃ token, answerAfter k c = .ok (some token)) : m ≤ n := by
  apply Nat.le_of_not_lt
  intro earlier
  obtain ⟨token, given⟩ := before n earlier
  rw [given] at failed
  cases failed

/-- Calls come to one thing only, as there is only one first fault. -/
theorem Yields.unique {result result' : Except Fault (List Token)} (yields : Yields c result)
    (yields' : Yields c result') : result = result' := by
  cases result with
  | ok tokens =>
      cases result' with
      | ok others =>
          have same : tokens = others := by
            apply List.ext_getElem?
            intro n
            have given := yields n
            rw [yields' n] at given
            exact (Except.ok.inj given).symm
          rw [same]
      | error fault =>
          obtain ⟨n, failed, -⟩ := yields'
          rw [yields n] at failed
          cases failed
  | error fault =>
      obtain ⟨n, failed, before⟩ := yields
      cases result' with
      | ok tokens =>
          rw [yields' n] at failed
          cases failed
      | error fault' =>
          obtain ⟨n', failed', before'⟩ := yields'
          obtain rfl := Nat.le_antisymm (le_of_tokens_before failed' before)
            (le_of_tokens_before failed before')
          rw [failed] at failed'
          exact congrArg Except.error (Except.error.inj failed')

/-- A token in front of what the calls behind it come to. -/
theorem Yields.cons {token : Token} {result : Except Fault (List Token)}
    (isToken : (next c).1 = .ok (some token)) (yields : Yields (next c).2 result) :
    Yields c (result.map (token :: ·)) := by
  cases result with
  | ok tokens =>
      rintro (_ | n)
      · exact isToken
      · rw [answerAfter_succ]
        exact yields n
  | error fault =>
      obtain ⟨n, failed, before⟩ := yields
      refine ⟨n + 1, failed, ?_⟩
      rintro (_ | m) earlier
      · exact ⟨token, isToken⟩
      · exact before m (Nat.lt_of_succ_lt_succ earlier)

theorem yields_scanAll (c : Cursor Char) : Yields c (scanAll c) := by
  -- By what is left to read: a token leaves less, and the other answers end the tokens at once.
  induction left : c.rest.length using Nat.strong_induction_on generalizing c with
  | h length ih =>
      rw [scanAll_eq]
      match step : next c with
      | (.ok none, after) =>
          have isNone : answerAfter 0 c = .ok none := congrArg Prod.fst step
          exact fun n => answerAfter_of_none isNone (Nat.zero_le n)
      | (.ok (some token), after) =>
          have shorter := next_length_lt_of_eq step (by simp)
          have yields := ih _ (left ▸ shorter) after rfl
          refine Yields.cons (congrArg Prod.fst step) ?_
          rw [step]
          exact yields
      | (.error fault, after) => exact ⟨0, congrArg Prod.fst step, fun m earlier => nomatch earlier⟩

theorem scanAll_eq_iff_yields {result : Except Fault (List Token)} :
    scanAll c = result ↔ Yields c result := by
  constructor
  · rintro rfl
    exact yields_scanAll c
  · exact (yields_scanAll c).unique

end

/-- Reading a text token by token always makes progress, also past faults. The cursor only moves
forward and stays in the text, and a call that gives a token or a fault takes a character. The
positions of faults increase. A call gives nothing only where blanks alone are left, and stops at
the end of the text; behind it, and behind a fault that reports the end, nothing else is given,
which comes about within one call more than there are characters. The tokens of the text are what
the calls give unless one of them gives a fault, and then the first fault counts. -/
theorem scan_streamed (text : String) :
    let start := Cursor.ofList text.toList
    (∀ n, start.Reaches (cursorAfter n start) ∧
      (cursorAfter n start).position ≤ text.length ∧
      (answerAfter n start ≠ .ok none →
        (cursorAfter n start).position < (cursorAfter (n + 1) start).position)) ∧
    (∀ m n fault fault', m < n → answerAfter m start = .error fault →
      answerAfter n start = .error fault' → fault.position < fault'.position) ∧
    (∀ n, answerAfter n start = .ok none →
      (∀ x ∈ (cursorAfter n start).rest, Text.isBlank x = true) ∧
      (cursorAfter (n + 1) start).position = text.length) ∧
    (∀ m n, m < n →
      (answerAfter m start = .ok none ∨
        ∃ position, answerAfter m start = .error (.unexpectedEnd position)) →
      answerAfter n start = .ok none) ∧
    (∃ n ≤ text.length, answerAfter n start = .ok none) ∧
    (∀ tokens, scan text = .ok tokens ↔ ∀ n, answerAfter n start = .ok tokens[n]?) ∧
    ∀ fault, scan text = .error fault ↔
      ∃ n, answerAfter n start = .error fault ∧
        ∀ m < n, ∃ token, answerAfter m start = .ok (some token) := by
  intro start
  have length : start.rest.length = text.length := String.length_toList
  have whole (n : Nat) :
      (cursorAfter n start).position + (cursorAfter n start).rest.length = text.length := by
    rw [position_add_length_cursorAfter, length]
    exact Nat.zero_add _
  refine ⟨fun n => ⟨cursorAfter_reaches start (Nat.zero_le n), ?inside, fun moved => ?takes⟩,
    fun m n fault fault' => position_lt_of_answerAfter, fun n isNone => ⟨?blanks, ?atEnd⟩,
    fun m n earlier isLast => ?ended, length ▸ exists_answerAfter_eq_none start,
    fun tokens => scanAll_eq_iff_yields, fun fault => scanAll_eq_iff_yields⟩
  case inside =>
    rw [← whole n]
    exact Nat.le_add_right _ _
  case takes =>
    rw [cursorAfter_succ]
    exact next_position_lt moved
  case blanks => exact isBlank_of_next_none (Prod.ext isNone rfl)
  case atEnd =>
    rw [← whole (n + 1), cursorAfter_rest_eq_nil (.inl isNone)]
    rfl
  case ended => exact answerAfter_of_rest_eq_nil (cursorAfter_rest_eq_nil isLast) earlier

/-- Calls go on in the middle of a path and behind half an operator, up to a quoted text without an
end. -/
theorem scan_streamed_behind_faults :
    let text := "true $.a.2&3 'x"
    let start := Cursor.ofList text.toList
    answerAfter 1 start = .error (.invalidKeyStart '2' 9) ∧
      answerAfter 2 start = .error (.unexpectedAfter '3' '&' 11) ∧ 9 < 11 ∧
      answerAfter 3 start = .error (.unexpectedEnd 15) ∧
      (∀ n, 3 < n → answerAfter n start = .ok none) ∧
      scan text = .error (.invalidKeyStart '2' 9) := by
  intro text start
  have isTrue : answerAfter 0 start = .ok (some (.boolean true)) := by decide +kernel
  have first : answerAfter 1 start = .error (.invalidKeyStart '2' 9) := by decide +kernel
  have second : answerAfter 2 start = .error (.unexpectedAfter '3' '&' 11) := by decide +kernel
  have third : answerAfter 3 start = .error (.unexpectedEnd 15) := by decide +kernel
  obtain ⟨-, increase, -, ended, -, -, faults⟩ := scan_streamed text
  refine ⟨first, second, increase 1 2 _ _ (Nat.lt_succ_self 1) first second, third,
    fun n later => ended 3 n later (.inr ⟨15, third⟩), (faults _).2 ⟨1, first, fun m earlier => ?_⟩⟩
  obtain rfl := Nat.lt_one_iff.1 earlier
  exact ⟨_, isTrue⟩

end Token

end PathExpr
