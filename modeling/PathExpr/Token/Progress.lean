import PathExpr.Token.Scan

set_option autoImplicit false

namespace PathExpr.Token

variable {α β : Type}

theorem Scanned.reaches_andThen {c : Cursor Char} {s : Scanned α}
    {next : α → Cursor Char → Scanned β} (reached : c.Reaches s.2)
    (onward : ∀ (a : α) (after : Cursor Char), after.Reaches (next a after).2) :
    c.Reaches (s.andThen next).2 := by
  obtain ⟨result, after⟩ := s
  cases result with
  | ok a => exact reached.trans (onward a after)
  | error fault => exact reached

theorem reaches_scanQuotedFrom (position : Nat) (chars : List Char) :
    (Cursor.mk chars position).Reaches (scanQuotedFrom position chars).2 := by
  fun_induction scanQuotedFrom position chars with
  | case1 => exact Cursor.Reaches.refl _
  | case2 => exact ⟨[_], rfl, rfl⟩
  | case3 => exact ⟨[_], rfl, rfl⟩
  | case4 position escaped rest _ _ ih =>
      exact Cursor.Reaches.trans ⟨['\\', escaped], rfl, rfl⟩ ih
  | case5 => exact ⟨[_, _], rfl, rfl⟩
  | case6 position c rest _ _ ih => exact Cursor.Reaches.trans ⟨[c], rfl, rfl⟩ ih

theorem reaches_scanQuoted (c : Cursor Char) : c.Reaches (scanQuoted c).2 :=
  reaches_scanQuotedFrom c.position c.rest

theorem reaches_scanNumeral (negative : Bool) (c : Cursor Char) :
    c.Reaches (scanNumeral negative c).2 := by
  have whole := c.reaches_span Char.isDigit
  simp only [scanNumeral]
  split
  · exact (whole.trans (Cursor.reaches_advance _)).trans (Cursor.reaches_span _ _)
  · exact whole

theorem reaches_scanNumber (negative : Bool) (start : Nat) (c : Cursor Char) :
    c.Reaches (scanNumber negative start c).2 := by
  simp only [scanNumber]
  split <;> exact reaches_scanNumeral negative c

theorem reaches_scanClosing (wanted : Char) (c : Cursor Char) :
    c.Reaches (scanClosing wanted c).2 := by
  simp only [scanClosing]
  split
  · exact Cursor.Reaches.refl c
  · split <;> exact c.reaches_advance

theorem reaches_scanField (c : Cursor Char) : c.Reaches (scanField c).2 := by
  simp only [scanField]
  split
  · exact Cursor.Reaches.refl c
  · split
    · exact c.reaches_span _
    · exact c.reaches_advance

theorem reaches_scanBracketed (c : Cursor Char) : c.Reaches (scanBracketed c).2 := by
  refine Scanned.reaches_andThen ?_ fun _ after => reaches_scanClosing ']' after
  split
  · exact Cursor.Reaches.refl c
  · split
    · exact c.reaches_advance.trans (reaches_scanQuoted _)
    · split
      · dsimp only
        split <;> exact reaches_scanNumeral false c
      · exact c.reaches_advance

theorem scanSegment?_length_lt {c : Cursor Char} {s : Scanned Segment}
    (scanned : scanSegment? c = some s) : s.2.rest.length < c.rest.length := by
  have shorter {x : Char} (first : c.peek? = some x) : c.advance.rest.length < c.rest.length :=
    have ⟨_, isCons⟩ := Cursor.peek?_eq_some first
    Cursor.advance_length_lt isCons
  simp only [scanSegment?] at scanned
  split at scanned
  · cases scanned
    exact Nat.lt_of_le_of_lt (reaches_scanField _).length_le (shorter ‹_›)
  · cases scanned
    exact Nat.lt_of_le_of_lt (reaches_scanBracketed _).length_le (shorter ‹_›)
  · cases scanned

theorem reaches_scanSegment? {c : Cursor Char} {s : Scanned Segment}
    (scanned : scanSegment? c = some s) : c.Reaches s.2 := by
  simp only [scanSegment?] at scanned
  split at scanned
  · cases scanned
    exact c.reaches_advance.trans (reaches_scanField _)
  · cases scanned
    exact c.reaches_advance.trans (reaches_scanBracketed _)
  · cases scanned

theorem reaches_scanSegmentsWithin (bound : Nat) (c : Cursor Char) :
    c.Reaches (scanSegmentsWithin bound c).2 := by
  induction bound generalizing c with
  | zero => exact Cursor.Reaches.refl c
  | succ bound ih =>
      simp only [scanSegmentsWithin]
      split
      · exact Cursor.Reaches.refl c
      · rename_i step scanned
        exact Scanned.reaches_andThen (reaches_scanSegment? scanned) fun _ after => ih after

theorem reaches_scanSegments (c : Cursor Char) : c.Reaches (scanSegments c).2 :=
  reaches_scanSegmentsWithin c.rest.length c

theorem advance_reaches_scanNumeral {negative : Bool} {c : Cursor Char} {first : Char}
    {rest : List Char} (isCons : c.rest = first :: rest) (digit : first.isDigit = true) :
    c.advance.Reaches (scanNumeral negative c).2 := by
  have whole := Cursor.advance_reaches_span isCons digit
  simp only [scanNumeral]
  split
  · exact (whole.trans (Cursor.reaches_advance _)).trans (Cursor.reaches_span _ _)
  · exact whole

theorem advance_reaches_scanNumber {negative : Bool} {start : Nat} {c : Cursor Char} {first : Char}
    {rest : List Char} (isCons : c.rest = first :: rest) (digit : first.isDigit = true) :
    c.advance.Reaches (scanNumber negative start c).2 := by
  simp only [scanNumber]
  split <;> exact advance_reaches_scanNumeral isCons digit

theorem advance_reaches_scanWord {c : Cursor Char} {first : Char} {rest : List Char}
    (isCons : c.rest = first :: rest) (start : Text.isWordStart first = true) :
    c.advance.Reaches (scanWord c).2 := by
  simp only [scanWord]
  split <;> exact Cursor.advance_reaches_span isCons (Text.isWordChar_of_isWordStart first start)

theorem advance_reaches_scanOperator (first : Char) (c : Cursor Char) :
    c.advance.Reaches (scanOperator first c).2 := by
  simp only [scanOperator]
  split
  · exact Cursor.Reaches.refl _
  · exact Cursor.Reaches.refl _
  · split
    · exact Cursor.reaches_advance _
    · exact Cursor.Reaches.refl _
  · split
    · exact Cursor.Reaches.refl _
    · split <;> exact Cursor.reaches_advance _

theorem advance_reaches_scanToken {c : Cursor Char} {first : Char} {rest : List Char}
    (isCons : c.rest = first :: rest) : c.advance.Reaches (scanToken first c).2 := by
  simp only [scanToken]
  split
  · exact reaches_scanSegments _
  · split
    · exact reaches_scanQuoted _
    · split
      · exact advance_reaches_scanNumber isCons ‹_›
      · split
        · exact reaches_scanNumber _ _ _
        · split
          · exact advance_reaches_scanWord isCons ‹_›
          · exact advance_reaches_scanOperator first c

theorem reaches_next (c : Cursor Char) : c.Reaches (next c).2 := by
  have skipped := c.reaches_span Text.isBlank
  simp only [next]
  split
  · exact skipped
  · rename_i first isFirst
    obtain ⟨rest, isCons⟩ := Cursor.peek?_eq_some isFirst
    exact (skipped.trans (Cursor.reaches_advance _)).trans (advance_reaches_scanToken isCons)

/-- A step that gives a token or a fault has passed at least one character. -/
theorem next_length_lt {c : Cursor Char} (moved : (next c).1 ≠ .ok none) :
    (next c).2.rest.length < c.rest.length := by
  have blanks := (c.reaches_span Text.isBlank).length_le
  generalize onward : (c.span Text.isBlank).2 = start at blanks
  simp only [next, onward] at moved ⊢
  split at moved
  · exact absurd rfl moved
  · rename_i first isFirst
    obtain ⟨rest, isCons⟩ := Cursor.peek?_eq_some isFirst
    have token := (advance_reaches_scanToken isCons).length_le
    have first := Cursor.advance_length_lt isCons
    exact Nat.lt_of_lt_of_le (Nat.lt_of_le_of_lt token first) blanks

theorem scanSegmentsWithin_eq {bound : Nat} {c : Cursor Char} (enough : c.rest.length ≤ bound) :
    scanSegmentsWithin bound c = scanSegments c := by
  suffices same : ∀ first second (c : Cursor Char), c.rest.length ≤ first → c.rest.length ≤ second →
      scanSegmentsWithin first c = scanSegmentsWithin second c from
    same bound c.rest.length c enough (Nat.le_refl _)
  intro first
  induction first with
  | zero =>
      intro second c none _
      cases second with
      | zero => rfl
      | succ second =>
          have empty : c.rest = [] := List.length_eq_zero_iff.1 (Nat.le_zero.1 none)
          simp only [scanSegmentsWithin, scanSegment?, Cursor.peek?, empty, List.head?_nil]
  | succ first ih =>
      intro second c within within'
      cases second with
      | zero =>
          have empty : c.rest = [] := List.length_eq_zero_iff.1 (Nat.le_zero.1 within')
          simp only [scanSegmentsWithin, scanSegment?, Cursor.peek?, empty, List.head?_nil]
      | succ second =>
          simp only [scanSegmentsWithin]
          split
          · rfl
          · rename_i step scanned
            have shorter := scanSegment?_length_lt scanned
            obtain ⟨result, after⟩ := step
            cases result with
            | error fault => rfl
            | ok segment =>
                simp only [Scanned.andThen]
                rw [ih second after (by dsimp only at shorter; omega)
                  (by dsimp only at shorter; omega)]

theorem scanSegments_eq (c : Cursor Char) :
    scanSegments c =
      match scanSegment? c with
      | none => (.ok [], c)
      | some step => step.andThen fun segment after => (scanSegments after).map (segment :: ·) := by
  rw [← scanSegmentsWithin_eq (Nat.le_succ _), scanSegmentsWithin]
  match scanned : scanSegment? c with
  | none => rfl
  | some (.error fault, after) => rfl
  | some (.ok segment, after) =>
      simp only [Scanned.andThen]
      rw [scanSegmentsWithin_eq (Nat.le_of_lt (scanSegment?_length_lt scanned))]

theorem next_length_lt_of_eq {c after : Cursor Char} {result : Except Fault (Option Token)}
    (step : next c = (result, after)) (moved : result ≠ .ok none) :
    after.rest.length < c.rest.length := by
  have shorter := @next_length_lt c
  rw [step] at shorter
  exact shorter moved

theorem next_nil (position : Nat) : next ⟨[], position⟩ = (.ok none, ⟨[], position⟩) := rfl

theorem scanWithin_eq {bound : Nat} {c : Cursor Char} (enough : c.rest.length ≤ bound) :
    scanWithin bound c = scanAll c := by
  suffices same : ∀ first second (c : Cursor Char), c.rest.length ≤ first → c.rest.length ≤ second →
      scanWithin first c = scanWithin second c from
    same bound c.rest.length c enough (Nat.le_refl _)
  intro first
  induction first with
  | zero =>
      intro second c none _
      obtain ⟨rest, position⟩ := c
      obtain rfl : rest = [] := List.length_eq_zero_iff.1 (Nat.le_zero.1 none)
      cases second <;> rfl
  | succ first ih =>
      intro second c within within'
      cases second with
      | zero =>
          obtain ⟨rest, position⟩ := c
          obtain rfl : rest = [] := List.length_eq_zero_iff.1 (Nat.le_zero.1 within')
          rfl
      | succ second =>
          simp only [scanWithin]
          split
          · rfl
          · rename_i token after step
            have shorter := next_length_lt_of_eq step (by simp)
            rw [ih second after (by omega) (by omega)]
          · rfl

/-- Every token takes a character, so the loop may be read without its bound. -/
theorem scanAll_eq (c : Cursor Char) :
    scanAll c =
      match next c with
      | (.ok none, _) => .ok []
      | (.ok (some token), after) => (scanAll after).map (token :: ·)
      | (.error fault, _) => .error fault := by
  rw [← scanWithin_eq (Nat.le_succ _), scanWithin]
  match step : next c with
  | (.ok none, after) => rfl
  | (.error fault, after) => rfl
  | (.ok (some token), after) =>
      have shorter := next_length_lt_of_eq step (by simp)
      simp only
      rw [scanWithin_eq (Nat.le_of_lt shorter)]

end PathExpr.Token
