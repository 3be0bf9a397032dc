import PathExpr.Proofs.Lexical.Shifted
import PathExpr.Proofs.Lexical.Sound

set_option autoImplicit false

namespace PathExpr

namespace Cursor

variable {α : Type} {c : Cursor α} {x : α}

/-- The same cursor with more elements behind those that are left. -/
def extend (tail : List α) (c : Cursor α) : Cursor α := ⟨c.rest ++ tail, c.position⟩

theorem peek?_extend (tail : List α) (isFirst : c.peek? = some x) :
    (c.extend tail).peek? = some x := by
  obtain ⟨rest, isCons⟩ := peek?_eq_some isFirst
  rw [peek?, extend, isCons]
  rfl

theorem advance_extend (tail : List α) (isFirst : c.peek? = some x) :
    (c.extend tail).advance = c.advance.extend tail := by
  obtain ⟨rest, isCons⟩ := peek?_eq_some isFirst
  simp only [advance, extend, isCons, List.cons_append]

theorem peek?_extend_of_isEnd (tail : List α) (isEnd : c.peek? = none) :
    (c.extend tail).peek? = tail.head? := by
  have empty : c.rest = [] := List.head?_eq_none_iff.1 isEnd
  rw [peek?, extend, empty, List.nil_append]

/-- A run goes no further if the element behind it does not belong to it. -/
theorem span_extend {p : α → Bool} {tail : List α}
    (ends : ∀ x ∈ ((c.span p).2.extend tail).peek?, p x = false) :
    (c.extend tail).span p = ((c.span p).1, (c.span p).2.extend tail) := by
  have whole : c.rest ++ tail = (c.span p).1 ++ ((c.span p).2.rest ++ tail) := by
    rw [(c.reads_span p).1, List.append_assoc]
  rw [extend, whole]
  exact span_append (c.span_holds p) ends c.position

end Cursor

namespace Token

/-- The second reader gives what the first one does, with more characters left behind it, unless the
first one complains about the end. -/
def Scanned.Extends {α : Type} (tail : List Char) (s s' : Scanned α) : Prop :=
  (∀ position, s.1 ≠ .error (.unexpectedEnd position)) → s' = (s.1, s.2.extend tail)

namespace Scanned.Extends

variable {α β : Type} {tail : List Char} {s s' : Scanned α}

theorem atEnd (position : Nat) (after : Cursor Char) :
    Extends tail (.error (.unexpectedEnd position), after) s' :=
  fun noEnd => absurd rfl (noEnd position)

theorem map (agree : Extends tail s s') (f : α → β) : Extends tail (s.map f) (s'.map f) := by
  intro noEnd
  rw [agree]
  · rfl
  · intro position isEnd
    apply noEnd position
    rw [Scanned.map, isEnd]
    rfl

theorem andThen {next : α → Cursor Char → Scanned β} (agree : Extends tail s s')
    (onward : ∀ a, s.1 = .ok a → Extends tail (next a s.2) (next a (s.2.extend tail))) :
    Extends tail (s.andThen next) (s'.andThen next) := by
  intro noEnd
  obtain ⟨result, after⟩ := s
  cases result with
  | ok a =>
      rw [agree fun _ isEnd => nomatch isEnd]
      exact onward a rfl noEnd
  | error fault =>
      rw [agree fun position isEnd => noEnd position (by cases isEnd; rfl)]
      rfl

end Scanned.Extends

open Scanned (Extends)

section

variable {blank : Char} {more : List Char} {c : Cursor Char}

theorem ends_of_isBlank (isBlank : Text.isBlank blank = true) {p : Char → Bool}
    (visible : Text.blanks.any p = false) :
    p blank = false := by
  apply Bool.eq_false_iff.2
  intro holds
  rw [isBlank_eq_false visible holds] at isBlank
  cases isBlank

theorem span_extend_blank (isBlank : Text.isBlank blank = true) {p : Char → Bool}
    (visible : Text.blanks.any p = false) :
    (c.extend (blank :: more)).span p = ((c.span p).1, (c.span p).2.extend (blank :: more)) := by
  apply Cursor.span_extend
  intro x isFirst
  cases stop : (c.span p).2.peek? with
  | none =>
      rw [Cursor.peek?_extend_of_isEnd _ stop] at isFirst
      cases isFirst
      exact ends_of_isBlank isBlank visible
  | some y =>
      rw [Cursor.peek?_extend _ stop] at isFirst
      cases isFirst
      exact c.span_stops p x stop

/-- The next character is a mark exactly if it was before. -/
theorem peek?_extend_blank_iff (isBlank : Text.isBlank blank = true) {mark : Char}
    (visible : Text.isBlank mark = false) :
    (c.extend (blank :: more)).peek? = some mark ↔ c.peek? = some mark := by
  cases isFirst : c.peek? with
  | none =>
      rw [Cursor.peek?_extend_of_isEnd _ isFirst]
      simp only [List.head?_cons, Option.some.injEq, reduceCtorEq, iff_false]
      rintro rfl
      rw [visible] at isBlank
      cases isBlank
  | some x => rw [Cursor.peek?_extend _ isFirst]

theorem scanQuotedFrom_extends (tail : List Char) (position : Nat) (chars : List Char) :
    Extends tail (scanQuotedFrom position chars) (scanQuotedFrom position (chars ++ tail)) := by
  fun_induction scanQuotedFrom position chars with
  | case1 => exact .atEnd _ _
  | case2 position rest =>
      rw [List.cons_append, scanQuotedFrom_quote]
      exact fun _ => rfl
  | case3 => exact .atEnd _ _
  | case4 position escaped rest isEscaped _ ih =>
      rw [List.cons_append, List.cons_append, scanQuotedFrom_backslash, if_pos isEscaped]
      exact ih.map _
  | case5 position escaped rest notEscaped =>
      rw [List.cons_append, List.cons_append, scanQuotedFrom_backslash, if_neg notEscaped]
      exact fun _ => rfl
  | case6 position c rest noQuote noBackslash ih =>
      rw [List.cons_append, scanQuotedFrom_other noQuote noBackslash]
      exact ih.map _

theorem scanQuoted_extends (tail : List Char) :
    Extends tail (scanQuoted c) (scanQuoted (c.extend tail)) :=
  (scanQuotedFrom_extends tail c.position c.rest).map _

variable (isBlank : Text.isBlank blank = true)

include isBlank

theorem scanNumeral_extend (negative : Bool) :
    scanNumeral negative (c.extend (blank :: more)) =
      ((scanNumeral negative c).1, (scanNumeral negative c).2.extend (blank :: more)) := by
  have visible : Text.blanks.any Char.isDigit = false := by decide
  unfold scanNumeral
  rw [span_extend_blank isBlank visible]
  dsimp only
  rw [if_congr (peek?_extend_blank_iff isBlank (by decide)) rfl rfl]
  split
  · rename_i isPoint
    rw [Cursor.advance_extend _ isPoint, span_extend_blank isBlank visible]
  · rfl

theorem scanNumber_extends (negative : Bool) (start : Nat) :
    Extends (blank :: more) (scanNumber negative start c)
      (scanNumber negative start (c.extend (blank :: more))) := by
  unfold scanNumber
  rw [scanNumeral_extend isBlank]
  dsimp only
  split <;> exact fun _ => rfl

theorem scanWord_extends :
    Extends (blank :: more) (scanWord c) (scanWord (c.extend (blank :: more))) := by
  unfold scanWord
  rw [span_extend_blank isBlank (by decide)]
  dsimp only
  split <;> exact fun _ => rfl

omit isBlank in
theorem scanClosing_extends (tail : List Char) (wanted : Char) :
    Extends tail (scanClosing wanted c) (scanClosing wanted (c.extend tail)) := by
  unfold scanClosing
  cases isFirst : c.peek? with
  | none => exact .atEnd _ _
  | some found =>
      rw [Cursor.peek?_extend _ isFirst, Cursor.advance_extend _ isFirst]
      dsimp only
      split <;> exact fun _ => rfl

theorem scanField_extends :
    Extends (blank :: more) (scanField c) (scanField (c.extend (blank :: more))) := by
  unfold scanField
  cases isFirst : c.peek? with
  | none => exact .atEnd _ _
  | some first =>
      rw [Cursor.peek?_extend _ isFirst, Cursor.advance_extend _ isFirst,
        span_extend_blank isBlank (by decide)]
      dsimp only
      split <;> exact fun _ => rfl

theorem scanBracketed_extends :
    Extends (blank :: more) (scanBracketed c) (scanBracketed (c.extend (blank :: more))) := by
  unfold scanBracketed
  apply Extends.andThen
  · cases isFirst : c.peek? with
    | none => exact .atEnd _ _
    | some first =>
        rw [Cursor.peek?_extend _ isFirst, Cursor.advance_extend _ isFirst,
          scanNumeral_extend isBlank]
        dsimp only
        split
        · exact (scanQuoted_extends _).map _
        · split
          · split <;> exact fun _ => rfl
          · exact fun _ => rfl
  · intro segment _
    exact (scanClosing_extends _ _).map _

theorem scanSegment?_extends :
    (scanSegment? c = none ∧ scanSegment? (c.extend (blank :: more)) = none) ∨
      ∃ s s', scanSegment? c = some s ∧ scanSegment? (c.extend (blank :: more)) = some s' ∧
        Extends (blank :: more) s s' := by
  unfold scanSegment?
  cases isFirst : c.peek? with
  | none =>
      rw [Cursor.peek?_extend_of_isEnd _ isFirst, List.head?_cons]
      refine .inl ⟨rfl, ?_⟩
      split
      · rename_i isPoint
        cases isPoint
        exact absurd isBlank (by decide)
      · rename_i isBracket
        cases isBracket
        exact absurd isBlank (by decide)
      · rfl
  | some first =>
      rw [Cursor.peek?_extend _ isFirst, Cursor.advance_extend _ isFirst]
      split
      · exact .inr ⟨_, _, rfl, rfl, scanField_extends isBlank⟩
      · exact .inr ⟨_, _, rfl, rfl, scanBracketed_extends isBlank⟩
      · exact .inl ⟨rfl, rfl⟩

theorem scanSegments_extends :
    Extends (blank :: more) (scanSegments c) (scanSegments (c.extend (blank :: more))) := by
  induction isLength : c.rest.length using Nat.strongRecOn generalizing c with
  | ind length ih =>
      rw [scanSegments_eq c, scanSegments_eq (c.extend _)]
      obtain ⟨noStep, noStep'⟩ | ⟨s, s', step, step', agree⟩ :=
        scanSegment?_extends (c := c) isBlank
      · rw [noStep, noStep']
        exact fun _ => rfl
      · rw [step, step']
        refine agree.andThen fun segment _ => Extends.map ?_ _
        exact ih _ (isLength ▸ scanSegment?_length_lt step) rfl

theorem scanOperator_extends {first : Char} (isFirst : c.peek? = some first) :
    Extends (blank :: more) (scanOperator first c)
      (scanOperator first (c.extend (blank :: more))) := by
  unfold scanOperator
  rw [Cursor.advance_extend _ isFirst]
  cases opening? first with
  | none => exact fun _ => rfl
  | some opening =>
      cases opening with
      | alone token => exact fun _ => rfl
      | perhapsEqual strict weak =>
          dsimp only
          rw [if_congr (peek?_extend_blank_iff isBlank (by decide)) rfl rfl]
          split
          · rename_i isEqual
            rw [Cursor.advance_extend _ isEqual]
            exact fun _ => rfl
          · exact fun _ => rfl
      | twice token =>
          dsimp only
          cases isSecond : c.advance.peek? with
          | none => exact .atEnd _ _
          | some second =>
              rw [Cursor.peek?_extend _ isSecond, Cursor.advance_extend _ isSecond]
              dsimp only
              split <;> exact fun _ => rfl

theorem scanToken_extends {first : Char} (isFirst : c.peek? = some first) :
    Extends (blank :: more) (scanToken first c) (scanToken first (c.extend (blank :: more))) := by
  have noDigit : blank.isDigit = false := ends_of_isBlank isBlank (by decide)
  have sameDigit : (c.advance.extend (blank :: more)).peek?.any Char.isDigit =
      c.advance.peek?.any Char.isDigit := by
    cases isSecond : c.advance.peek? with
    | none =>
        rw [Cursor.peek?_extend_of_isEnd _ isSecond]
        exact noDigit
    | some second => rw [Cursor.peek?_extend _ isSecond]
  unfold scanToken
  rw [Cursor.advance_extend _ isFirst, sameDigit]
  split
  · exact (scanSegments_extends isBlank).map _
  · split
    · exact (scanQuoted_extends _).map _
    · split
      · exact scanNumber_extends isBlank _ _
      · split
        · exact scanNumber_extends isBlank _ _
        · split
          · exact scanWord_extends isBlank
          · exact scanOperator_extends isBlank isFirst

theorem next_extends (more : List Char) (visible : (next c).1 ≠ .ok none) :
    Extends (blank :: more) (next c) (next (c.extend (blank :: more))) := by
  unfold next at visible ⊢
  dsimp only at visible ⊢
  cases isFirst : (c.span Text.isBlank).2.peek? with
  | none =>
      rw [isFirst] at visible
      exact absurd rfl visible
  | some first =>
      have further := Cursor.peek?_extend (blank :: more) isFirst
      have stops : (c.extend (blank :: more)).span Text.isBlank =
          ((c.span Text.isBlank).1, (c.span Text.isBlank).2.extend (blank :: more)) := by
        apply Cursor.span_extend
        rw [further, ← isFirst]
        exact c.span_stops Text.isBlank
      rw [stops, further]
      exact (scanToken_extends isBlank isFirst).map _

/-- Behind the tokens of a text and a blank, reading goes on as from a new text. -/
theorem scanAll_extend (more : List Char)
    (noEnd : ∀ position, scanAll c ≠ .error (.unexpectedEnd position)) :
    scanAll (c.extend (blank :: more)) =
      (scanAll c).bind fun tokens =>
        (scanAll ⟨blank :: more, c.position + c.rest.length⟩).map (tokens ++ ·) := by
  induction isLength : c.rest.length using Nat.strongRecOn generalizing c with
  | ind length ih =>
      subst isLength
      rw [scanAll_eq c] at noEnd ⊢
      match step : next c with
      | (.ok none, after) =>
          rw [Cursor.extend, scanAll_blanks (isBlank_of_next_none step)]
          cases scanAll ⟨blank :: more, c.position + c.rest.length⟩ <;> rfl
      | (.error fault, after) =>
          have agree := next_extends (c := c) isBlank more (by rw [step]; simp)
          rw [step] at agree noEnd
          rw [scanAll_eq, agree fun position isEnd => noEnd position (by cases isEnd; rfl)]
          rfl
      | (.ok (some token), after) =>
          have agree := next_extends (c := c) isBlank more (by rw [step]; simp)
          rw [step] at agree noEnd
          have shorter := next_length_lt_of_eq step (by simp)
          have atEnd := (reaches_next c).position_add_length
          rw [step] at atEnd
          have onward := ih after.rest.length shorter (c := after) (by
            intro position isEnd
            apply noEnd position
            dsimp only
            rw [isEnd]
            rfl) rfl
          rw [scanAll_eq, agree fun _ isEnd => nomatch isEnd]
          dsimp only at atEnd ⊢
          rw [onward, atEnd]
          cases scanAll after with
          | error fault => rfl
          | ok tokens => cases scanAll ⟨blank :: more, c.position + c.rest.length⟩ <;> rfl

end

theorem scanAll_shift (n : Nat) (c : Cursor Char) :
    scanAll (c.shift n) = (scanAll c).mapError (Fault.shift n) := scanWithin_shift n c c.rest.length

theorem scanAll_blanks_append {blanks : List Char}
    (areBlank : ∀ c ∈ blanks, Text.isBlank c = true) (text : String) (position : Nat) :
    scanAll ⟨blanks ++ text.toList, position⟩ =
      (scan text).mapError (Fault.shift (position + blanks.length)) := by
  rw [scanAll_blanks areBlank, scan, ← scanAll_shift, Cursor.shift, Cursor.ofList, Nat.zero_add]

/-- With blanks between them, the second text is read as if it stood alone. -/
theorem scan_append_eq_bind {first blanks second : String} (some : blanks ≠ "")
    (areBlank : ∀ c ∈ blanks.toList, Text.isBlank c = true)
    (noEnd : ∀ position, scan first ≠ .error (.unexpectedEnd position)) :
    scan (first ++ blanks ++ second) = (scan first).bind fun tokens =>
      ((scan second).mapError (Fault.shift (first.length + blanks.length))).map (tokens ++ ·) := by
  have onward := scanAll_blanks_append areBlank second first.length
  rw [String.length_toList] at onward
  rw [← onward, scan, String.toList_append, String.toList_append, List.append_assoc]
  cases isCons : blanks.toList with
  | nil => exact absurd (String.toList_eq_nil_iff.1 isCons) some
  | cons blank rest =>
      rw [isCons] at areBlank
      have extended := scanAll_extend (areBlank blank List.mem_cons_self)
        (rest ++ second.toList) noEnd
      rw [Cursor.ofList, Nat.zero_add, String.length_toList] at extended
      exact extended

/-- Texts with blanks between them have the tokens of the first text and then those of the second.
The first fault counts. The end of the first text does not: the second text may go on there. -/
theorem scan_append_blanks (first blanks second : String) (some : blanks ≠ "")
    (areBlank : ∀ c ∈ blanks.toList, Text.isBlank c = true) :
    (∀ tokens, scan first = .ok tokens →
      (∀ others, scan second = .ok others →
        scan (first ++ blanks ++ second) = .ok (tokens ++ others)) ∧
      ∀ fault, scan second = .error fault →
        scan (first ++ blanks ++ second) = .error (fault.shift (first.length + blanks.length))) ∧
    ∀ fault, scan first = .error fault → (∀ position, fault ≠ .unexpectedEnd position) →
      scan (first ++ blanks ++ second) = .error fault := by
  constructor
  · intro tokens scanned
    rw [scan_append_eq_bind some areBlank (by simp [scanned]), scanned]
    constructor
    · intro others scanned'
      rw [scanned']
      rfl
    · intro fault failed
      rw [failed]
      rfl
  · intro fault failed noEnd
    rw [scan_append_eq_bind some areBlank (by simpa [failed] using noEnd), failed]
    rfl

/-- A fault of the second text is reported behind the first one and the blanks, which are counted as
characters. -/
theorem scan_append_blanks_second_fails :
    scan "$.a" = .ok [.path ⟨[.field "a"]⟩] ∧
      scan "= 1" = .error (.unexpectedAfter ' ' '=' 1) ∧
      scan ("$.a" ++ "\u3000\n" ++ "= 1") = .error (.unexpectedAfter ' ' '=' 6) := by
  have scanned : scan "$.a" = .ok [.path ⟨[.field "a"]⟩] := by decide +kernel
  have failed : scan "= 1" = .error (.unexpectedAfter ' ' '=' 1) := by decide +kernel
  have areBlank : "\u3000\n".toList.all Text.isBlank = true := by decide +kernel
  have joined := scan_append_blanks "$.a" "\u3000\n" "= 1" (by decide)
    (List.all_eq_true.1 areBlank)
  exact ⟨scanned, failed, (joined.1 _ scanned).2 _ failed⟩

end Token

end PathExpr
