import PathExpr.Proofs.Lexical.Complete

set_option autoImplicit false

namespace PathExpr

namespace Token

namespace Scanned

variable {α β : Type}

theorem map_eq_ok {s : Scanned α} {f : α → β} {b : β} {after : Cursor Char} :
    s.map f = (.ok b, after) ↔ ∃ a, s = (.ok a, after) ∧ f a = b := by
  obtain ⟨result, stop⟩ := s
  cases result with
  | error fault =>
      simp only [map, Except.map, Prod.mk.injEq, reduceCtorEq, false_and, exists_false]
  | ok a =>
      simp only [map, Except.map, Prod.mk.injEq, Except.ok.injEq]
      constructor
      · rintro ⟨same, stops⟩
        exact ⟨a, ⟨rfl, stops⟩, same⟩
      · rintro ⟨_, ⟨rfl, stops⟩, same⟩
        exact ⟨same, stops⟩

theorem andThen_eq_ok {s : Scanned α} {next : α → Cursor Char → Scanned β} {b : β}
    {after : Cursor Char} :
    s.andThen next = (.ok b, after) ↔
      ∃ a between, s = (.ok a, between) ∧ next a between = (.ok b, after) := by
  obtain ⟨result, stop⟩ := s
  cases result with
  | error fault =>
      simp only [andThen, Prod.mk.injEq, reduceCtorEq, false_and, exists_false]
  | ok a =>
      simp only [andThen, Prod.mk.injEq, Except.ok.injEq]
      constructor
      · intro further
        exact ⟨a, stop, ⟨rfl, rfl⟩, further⟩
      · rintro ⟨_, _, ⟨rfl, rfl⟩, further⟩
        exact further

end Scanned

theorem beq_eq_false_of_peek?_ne {c : Cursor Char} {other : Char} (isOther : c.peek? ≠ some other) :
    ∀ x ∈ c.rest.head?, (x == other) = false := by
  intro x isHead
  apply beq_false_of_ne
  rintro rfl
  exact isOther isHead

theorem scanQuotedFrom_sound {position : Nat} {chars text : List Char} {after : Cursor Char}
    (scanned : scanQuotedFrom position chars = (.ok text, after)) :
    chars = Text.escape text ++ '\'' :: after.rest := by
  fun_induction scanQuotedFrom position chars generalizing text with
  | case1 => cases scanned
  | case2 =>
      cases scanned
      rfl
  | case3 => cases scanned
  | case4 position escaped rest isEscaped _ ih =>
      obtain ⟨inner, further, rfl⟩ := Scanned.map_eq_ok.1 scanned
      rw [ih further, Text.escape, if_pos isEscaped]
      rfl
  | case5 => cases scanned
  | case6 position c rest noQuote noBackslash ih =>
      obtain ⟨inner, further, rfl⟩ := Scanned.map_eq_ok.1 scanned
      have ordinary : ¬Text.isEscaped c = true := by
        simp only [Text.isEscaped, Bool.or_eq_true, beq_iff_eq, noQuote, noBackslash, or_self,
          not_false_eq_true]
      rw [ih further, Text.escape, if_neg ordinary]
      rfl

theorem scanQuoted_sound {c after : Cursor Char} {text : String}
    (scanned : scanQuoted c = (.ok text, after)) :
    '\'' :: c.rest = (Text.quote text).toList ++ after.rest := by
  obtain ⟨inner, further, rfl⟩ := Scanned.map_eq_ok.1 scanned
  unfold Text.quote
  rw [String.toList_ofList, String.toList_ofList, List.cons_append, List.append_assoc,
    scanQuotedFrom_sound further]
  rfl

/-- What is read behind a first digit is a numeral, up to where it does not go on. -/
theorem scanNumeral_sound {negative : Bool} {c after : Cursor Char} {n : Numeral} {first : Char}
    {rest : List Char} (isCons : c.rest = first :: rest) (digit : first.isDigit = true)
    (scanned : scanNumeral negative c = (n, after)) :
    n.negative = negative ∧ n.WellFormed ∧ c.rest = numeralDigits n ++ after.rest ∧
      ∀ x ∈ after.rest.head?, (x.isDigit || (n.fraction.isNone && x == '.')) = false := by
  have whole : (c.span Char.isDigit).1 ≠ [] := by
    show c.rest.takeWhile Char.isDigit ≠ []
    rw [isCons, List.takeWhile_cons_of_pos digit]
    exact List.cons_ne_nil _ _
  have run := (c.reads_span Char.isDigit).1
  have stops := c.span_stops Char.isDigit
  unfold scanNumeral at scanned
  dsimp only at scanned
  split at scanned
  · rename_i isPoint
    obtain ⟨rfl, rfl⟩ := Prod.mk.inj scanned
    have point := (Cursor.reads_advance_of_peek? isPoint).1
    have fraction := ((c.span Char.isDigit).2.advance.reads_span Char.isDigit).1
    refine ⟨rfl, ⟨whole, c.span_holds Char.isDigit, Cursor.span_holds Char.isDigit _⟩, ?_, ?_⟩
    · unfold numeralDigits
      dsimp only
      rw [List.append_assoc, List.cons_append, ← fraction]
      rw [point] at run
      exact run
    · intro x isHead
      rw [Cursor.span_stops Char.isDigit _ x isHead]
      rfl
  · rename_i noPoint
    obtain ⟨rfl, rfl⟩ := Prod.mk.inj scanned
    refine ⟨rfl, ⟨whole, c.span_holds Char.isDigit, fun x inNone => nomatch inNone⟩, ?_, ?_⟩
    · unfold numeralDigits
      dsimp only
      rw [List.append_nil]
      exact run
    · intro x isHead
      rw [stops x isHead, beq_eq_false_of_peek?_ne noPoint x isHead]
      rfl

/-- Between two cursors stands a step that does not go on behind the second one. -/
def StepTaken (c : Cursor Char) (segment : Segment) (after : Cursor Char) : Prop :=
  ∃ step : Step, step.segment = segment ∧ c.rest = step.chars ++ after.rest ∧
    ∀ x ∈ after.rest.head?, step.further x = false

theorem scanField_sound {c after : Cursor Char} {segment : Segment} (isPoint : c.peek? = some '.')
    (scanned : scanField c.advance = (.ok segment, after)) : StepTaken c segment after := by
  have point := (Cursor.reads_advance_of_peek? isPoint).1
  unfold scanField at scanned
  split at scanned
  · cases scanned
  · rename_i first isFirst
    split at scanned
    · rename_i start
      obtain ⟨isName, rfl⟩ := Prod.mk.inj scanned
      have run := (c.advance.reads_span Text.isWordChar).1
      have isWord : Text.isWord (c.advance.span Text.isWordChar).1 = true := by
        obtain ⟨rest, isCons⟩ := Cursor.peek?_eq_some isFirst
        have startIsChar := Text.isWordChar_of_isWordStart first start
        show Text.isWord (c.advance.rest.takeWhile Text.isWordChar) = true
        rw [isCons, List.takeWhile_cons_of_pos startIsChar, Text.isWord, start]
        exact List.all_takeWhile
      refine ⟨.name _ isWord, Except.ok.inj isName, ?_, c.advance.span_stops Text.isWordChar⟩
      rw [point]
      exact congrArg ('.' :: ·) run
    · cases scanned

theorem scanClosing_sound {wanted : Char} {c after : Cursor Char}
    (scanned : scanClosing wanted c = (.ok (), after)) : c.rest = wanted :: after.rest := by
  unfold scanClosing at scanned
  split at scanned
  · cases scanned
  · rename_i found isFound
    split at scanned
    · rename_i isWanted
      obtain ⟨-, rfl⟩ := Prod.mk.inj scanned
      rw [← isWanted]
      exact (Cursor.reads_advance_of_peek? isFound).1
    · cases scanned

theorem index?_eq_some {n : Numeral} {position : UInt64} (isIndex : n.index? = some position) :
    n.fraction = none ∧ Nat.ofDigitChars 10 n.whole 0 < UInt64.size ∧
      UInt64.ofNat (Nat.ofDigitChars 10 n.whole 0) = position := by
  unfold Numeral.index? at isIndex
  dsimp only at isIndex
  split at isIndex
  · rename_i small
    exact ⟨small.1, small.2, Option.some.inj isIndex⟩
  · cases isIndex

theorem scanBracketed_sound {c after : Cursor Char} {segment : Segment}
    (isBracket : c.peek? = some '[') (scanned : scanBracketed c.advance = (.ok segment, after)) :
    StepTaken c segment after := by
  have bracket := (Cursor.reads_advance_of_peek? isBracket).1
  obtain ⟨found, between, inside, closed⟩ := Scanned.andThen_eq_ok.1 scanned
  obtain ⟨_, isClosed, rfl⟩ := Scanned.map_eq_ok.1 closed
  have closing := scanClosing_sound isClosed
  split at inside
  · cases inside
  · rename_i first isFirst
    split at inside
    · rename_i isQuote
      obtain ⟨text, quoted, rfl⟩ := Scanned.map_eq_ok.1 inside
      refine ⟨.quoted text, rfl, ?_, fun _ _ => rfl⟩
      have reads := (Cursor.reads_advance_of_peek? isFirst).1
      have whole := scanQuoted_sound quoted
      rw [isQuote, List.singleton_append, whole, closing] at reads
      rw [bracket, reads, Step.chars, List.append_assoc]
      rfl
    · split at inside
      · rename_i digit
        obtain ⟨rest, isCons⟩ := Cursor.peek?_eq_some isFirst
        cases numeral : scanNumeral false c.advance with
        | mk n stop =>
            rw [numeral] at inside
            obtain ⟨-, wellFormed, run, -⟩ := scanNumeral_sound isCons digit numeral
            dsimp only at inside
            split at inside
            · rename_i position isIndex
              cases inside
              obtain ⟨onlyWhole, small, rfl⟩ := index?_eq_some isIndex
              refine ⟨.index n.whole wellFormed.whole_ne_nil wellFormed.whole small, rfl, ?_,
                fun _ _ => rfl⟩
              unfold numeralDigits at run
              rw [onlyWhole, List.append_nil, closing] at run
              rw [bracket, run, Step.chars, List.append_assoc]
              rfl
            · cases inside
      · cases inside

theorem scanSegment?_sound {c after : Cursor Char} {segment : Segment}
    (scanned : scanSegment? c = some (.ok segment, after)) : StepTaken c segment after := by
  unfold scanSegment? at scanned
  split at scanned
  · exact scanField_sound ‹_› (Option.some.inj scanned)
  · exact scanBracketed_sound ‹_› (Option.some.inj scanned)
  · cases scanned

theorem ends_of_scanSegment? {c : Cursor Char} (noStep : scanSegment? c = none) :
    ∀ x ∈ c.rest.head?, (Lexeme.path []).further x = false := by
  intro x isHead
  have isFirst : c.peek? = Option.some x := isHead
  have other : x ≠ '.' ∧ x ≠ '[' := by
    unfold scanSegment? at noStep
    rw [isFirst] at noStep
    constructor <;> rintro rfl <;> cases noStep
  simp only [Lexeme.further, beq_false_of_ne other.1, beq_false_of_ne other.2, Bool.false_or,
    List.getLast?_nil, Option.any_none]

theorem scanSegmentsWithin_sound {bound : Nat} {c after : Cursor Char} {segments : List Segment}
    (enough : c.rest.length ≤ bound)
    (scanned : scanSegmentsWithin bound c = (.ok segments, after)) :
    ∃ steps : List Step, steps.map Step.segment = segments ∧
      c.rest = steps.flatMap Step.chars ++ after.rest ∧
      ∀ x ∈ after.rest.head?, (Lexeme.path steps).further x = false := by
  induction bound generalizing c segments with
  | zero =>
      have empty : c.rest = [] := List.length_eq_zero_iff.1 (Nat.le_zero.1 enough)
      cases scanned
      refine ⟨[], rfl, rfl, ?_⟩
      rw [empty]
      exact fun x inNone => nomatch inNone
  | succ bound ih =>
      rw [scanSegmentsWithin] at scanned
      cases begun : scanSegment? c with
      | none =>
          rw [begun] at scanned
          cases scanned
          exact ⟨[], rfl, rfl, ends_of_scanSegment? begun⟩
      | some found =>
          rw [begun] at scanned
          obtain ⟨segment, between, rfl, onward⟩ := Scanned.andThen_eq_ok.1 scanned
          obtain ⟨others, further, rfl⟩ := Scanned.map_eq_ok.1 onward
          have shorter := scanSegment?_length_lt begun
          obtain ⟨step, rfl, read, stops⟩ := scanSegment?_sound begun
          obtain ⟨steps, rfl, reads, ends⟩ := ih (by dsimp only at shorter; omega) further
          refine ⟨step :: steps, rfl, ?_, fun x isHead => ?_⟩
          · rw [read, reads, List.flatMap_cons, List.append_assoc]
          · cases steps with
            | nil =>
                rw [List.flatMap_nil, List.nil_append] at reads
                rw [reads] at stops
                rw [Lexeme.further_path_singleton, ends x isHead, stops x isHead]
                rfl
            | cons second more =>
                rw [Lexeme.further_path_cons_cons]
                exact ends x isHead

/-- Between two cursors stands a lexeme of the token that does not go on behind the second one. -/
def Taken (c : Cursor Char) (t : Token) (after : Cursor Char) : Prop :=
  ∃ lexeme : Lexeme, lexeme.token = t ∧ c.rest = lexeme.chars ++ after.rest ∧
    ∀ x ∈ after.rest.head?, lexeme.further x = false

theorem taken_fixed {c after : Cursor Char} {t : Token} (isFixed : t.isFixed = true)
    (read : c.rest = t.text.toList ++ after.rest)
    (ends : ∀ x ∈ after.rest.head?, t.fixedFurther x = false) : Taken c t after :=
  ⟨.fixed t isFixed, rfl, read, ends⟩

theorem scanNumber_sound {negative : Bool} {start : Nat} {c after : Cursor Char} {t : Token}
    {first : Char} {rest : List Char} (isCons : c.rest = first :: rest)
    (digit : first.isDigit = true) (scanned : scanNumber negative start c = (.ok t, after)) :
    ∃ lexeme : Lexeme, lexeme.token = t ∧
      (if negative then ['-'] else []) ++ c.rest = lexeme.chars ++ after.rest ∧
      ∀ x ∈ after.rest.head?, lexeme.further x = false := by
  unfold scanNumber at scanned
  cases numeral : scanNumeral negative c with
  | mk n stop =>
      obtain ⟨rfl, wellFormed, read, ends⟩ := scanNumeral_sound isCons digit numeral
      rw [numeral] at scanned
      dsimp only at scanned
      split at scanned
      · rename_i finite
        obtain ⟨isNumber, rfl⟩ := Prod.mk.inj scanned
        refine ⟨.number n wellFormed n.value (Numeral.roundsTo_iff.2 ⟨rfl, finite⟩),
          Except.ok.inj isNumber, ?_, ends⟩
        rw [read, Lexeme.chars, chars_eq_numeralDigits, List.append_assoc]
      · cases scanned

theorem keyword_of_lookup {word : String} {t : Token} (found : keywords.lookup word = some t) :
    t.isFixed = true ∧ t.text = word ∧ ∀ c, t.fixedFurther c = Text.isWordChar c := by
  obtain ⟨before, behind, isAppend, -⟩ := List.lookup_eq_some_iff.1 found
  have inKeywords : (word, t) ∈ keywords := by
    rw [isAppend]
    exact List.mem_append_right before List.mem_cons_self
  have entries : ∀ entry ∈ keywords, entry.2.isFixed = true ∧ entry.2.text = entry.1 ∧
      ∀ c, entry.2.fixedFurther c = Text.isWordChar c := by
    simp only [keywords, List.forall_mem_cons, List.not_mem_nil, false_implies, implies_true,
      and_true]
    exact ⟨⟨rfl, rfl, fun _ => rfl⟩, ⟨rfl, rfl, fun _ => rfl⟩, ⟨rfl, rfl, fun _ => rfl⟩,
      ⟨rfl, rfl, fun _ => rfl⟩, ⟨rfl, rfl, fun _ => rfl⟩, ⟨rfl, rfl, fun _ => rfl⟩,
      ⟨rfl, rfl, fun _ => rfl⟩⟩
  exact entries _ inKeywords

theorem scanWord_sound {c after : Cursor Char} {t : Token}
    (scanned : scanWord c = (.ok t, after)) : Taken c t after := by
  unfold scanWord at scanned
  dsimp only at scanned
  split at scanned
  · rename_i found isKeyword
    obtain ⟨isToken, rfl⟩ := Prod.mk.inj scanned
    cases isToken
    obtain ⟨isFixed, isText, further⟩ := keyword_of_lookup isKeyword
    apply taken_fixed isFixed
    · rw [isText, String.toList_ofList]
      exact (c.reads_span Text.isWordChar).1
    · intro x isHead
      rw [further]
      exact c.span_stops Text.isWordChar x isHead
  · cases scanned

/-- A minus sign that is read alone is not followed by a digit. -/
theorem taken_alone {first : Char} {c : Cursor Char} {t : Token}
    (opens : opening? first = some (.alone t)) (isFirst : c.peek? = some first)
    (noNumber : ¬(first = '-' ∧ c.advance.peek?.any Char.isDigit = true)) :
    Taken c t c.advance := by
  have fixed : t.isFixed = true ∧ t.text.toList = [first] ∧
      ∀ x, t.fixedFurther x = (first == '-' && x.isDigit) := by
    unfold opening? at opens
    split at opens <;> cases opens <;> exact ⟨rfl, rfl, fun _ => rfl⟩
  obtain ⟨isFixed, isText, further⟩ := fixed
  apply taken_fixed isFixed
  · rw [isText, (Cursor.reads_advance_of_peek? isFirst).1]
  · intro x isHead
    have isNext : c.advance.peek? = some x := isHead
    rw [isNext] at noNumber
    rw [further, Bool.eq_false_iff]
    intro goesOn
    rw [Bool.and_eq_true, beq_iff_eq] at goesOn
    exact noNumber goesOn

/-- The sign behind a comparison is taken with it, so the strict one has none behind it. -/
theorem taken_comparison {first : Char} {c : Cursor Char} {strict weak : Comparison}
    (opens : opening? first = some (.perhapsEqual strict weak)) (isFirst : c.peek? = some first) :
    (c.advance.peek? = some '=' → Taken c (.comparison weak) c.advance.advance) ∧
      (c.advance.peek? ≠ some '=' → Taken c (.comparison strict) c.advance) := by
  have fixed : strict.symbol.toList = [first] ∧ weak.symbol.toList = [first, '='] ∧
      (∀ x, (Token.comparison strict).fixedFurther x = (x == '=')) ∧
      ∀ x, (Token.comparison weak).fixedFurther x = false := by
    unfold opening? at opens
    split at opens <;> cases opens <;> exact ⟨rfl, rfl, fun _ => rfl, fun _ => rfl⟩
  obtain ⟨isStrict, isWeak, furtherStrict, furtherWeak⟩ := fixed
  have read := (Cursor.reads_advance_of_peek? isFirst).1
  constructor
  · intro isEqual
    apply taken_fixed rfl _ fun x _ => furtherWeak x
    show c.rest = weak.symbol.toList ++ _
    rw [isWeak, read, (Cursor.reads_advance_of_peek? isEqual).1]
    rfl
  · intro notEqual
    apply taken_fixed rfl
    · show c.rest = strict.symbol.toList ++ _
      rw [isStrict, read]
    · intro x isHead
      rw [furtherStrict]
      exact beq_eq_false_of_peek?_ne notEqual x isHead

theorem taken_twice {first : Char} {c : Cursor Char} {t : Token}
    (opens : opening? first = some (.twice t)) (isFirst : c.peek? = some first)
    (isSecond : c.advance.peek? = some first) : Taken c t c.advance.advance := by
  have fixed : t.isFixed = true ∧ t.text.toList = [first, first] ∧
      ∀ x, t.fixedFurther x = false := by
    unfold opening? at opens
    split at opens <;> cases opens <;> exact ⟨rfl, rfl, fun _ => rfl⟩
  obtain ⟨isFixed, isText, further⟩ := fixed
  apply taken_fixed isFixed _ fun x _ => further x
  rw [isText, (Cursor.reads_advance_of_peek? isFirst).1,
    (Cursor.reads_advance_of_peek? isSecond).1]
  rfl

theorem scanOperator_sound {first : Char} {c after : Cursor Char} {t : Token}
    (isFirst : c.peek? = some first)
    (noNumber : ¬(first = '-' ∧ c.advance.peek?.any Char.isDigit = true))
    (scanned : scanOperator first c = (.ok t, after)) : Taken c t after := by
  unfold scanOperator at scanned
  dsimp only at scanned
  split at scanned
  · cases scanned
  · rename_i opens
    cases scanned
    exact taken_alone opens isFirst noNumber
  · rename_i opens
    split at scanned
    · rename_i isEqual
      cases scanned
      exact (taken_comparison opens isFirst).1 isEqual
    · rename_i notEqual
      cases scanned
      exact (taken_comparison opens isFirst).2 notEqual
  · rename_i opens
    split at scanned
    · cases scanned
    · rename_i second isSecond
      split at scanned
      · rename_i same
        cases scanned
        rw [same] at isSecond
        exact taken_twice opens isFirst isSecond
      · cases scanned

theorem scanToken_sound {first : Char} {c after : Cursor Char} {t : Token}
    (isFirst : c.peek? = some first) (scanned : scanToken first c = (.ok t, after)) :
    Taken c t after := by
  have read := (Cursor.reads_advance_of_peek? isFirst).1
  unfold scanToken at scanned
  split at scanned
  · rename_i isDollar
    obtain ⟨segments, further, rfl⟩ := Scanned.map_eq_ok.1 scanned
    obtain ⟨steps, rfl, reads, ends⟩ := scanSegmentsWithin_sound (Nat.le_refl _) further
    refine ⟨.path steps, rfl, ?_, ends⟩
    rw [read, reads, isDollar]
    rfl
  · split at scanned
    · rename_i isQuote
      obtain ⟨text, quoted, rfl⟩ := Scanned.map_eq_ok.1 scanned
      refine ⟨.string text, rfl, ?_, fun _ _ => rfl⟩
      rw [read, isQuote]
      exact scanQuoted_sound quoted
    · split at scanned
      · rename_i digit
        obtain ⟨rest, isCons⟩ := Cursor.peek?_eq_some isFirst
        exact scanNumber_sound isCons digit scanned
      · split at scanned
        · rename_i isNumber
          cases second : c.advance.peek? with
          | none =>
              rw [second] at isNumber
              cases isNumber.2
          | some digit =>
              rw [second] at isNumber
              obtain ⟨rest, isCons⟩ := Cursor.peek?_eq_some second
              have number := scanNumber_sound isCons isNumber.2 scanned
              unfold Taken
              rw [read, isNumber.1]
              exact number
        · rename_i noNumber
          split at scanned
          · exact scanWord_sound scanned
          · exact scanOperator_sound isFirst noNumber scanned

/-- In front of the next token stand blanks. -/
theorem next_sound {c after : Cursor Char} {t : Token} (step : next c = (.ok (some t), after)) :
    ∃ blanks lexeme, (∀ x ∈ blanks, Text.isBlank x = true) ∧ Lexeme.token lexeme = t ∧
      c.rest = blanks ++ lexeme.chars ++ after.rest ∧
      ∀ x ∈ after.rest.head?, lexeme.further x = false := by
  have skipped := (c.reads_span Text.isBlank).1
  unfold next at step
  dsimp only at step
  split at step
  · cases step
  · rename_i first isFirst
    obtain ⟨token, scanned, isToken⟩ := Scanned.map_eq_ok.1 step
    cases isToken
    obtain ⟨lexeme, isToken, read, ends⟩ := scanToken_sound isFirst scanned
    refine ⟨_, lexeme, c.span_holds Text.isBlank, isToken, ?_, ends⟩
    rw [List.append_assoc, ← read]
    exact skipped

theorem isBlank_of_next_none {c after : Cursor Char} (step : next c = (.ok none, after)) :
    ∀ x ∈ c.rest, Text.isBlank x = true := by
  have skipped := (c.reads_span Text.isBlank).1
  unfold next at step
  dsimp only at step
  split at step
  · rename_i isEnd
    have empty : (c.span Text.isBlank).2.rest = [] := List.head?_eq_none_iff.1 isEnd
    rw [empty, List.append_nil] at skipped
    rw [skipped]
    exact c.span_holds Text.isBlank
  · obtain ⟨token, -, isToken⟩ := Scanned.map_eq_ok.1 step
    cases isToken

theorem splits_of_scanWithin {bound : Nat} {c : Cursor Char} {tokens : List Token}
    (enough : c.rest.length ≤ bound) (scanned : scanWithin bound c = .ok tokens) :
    ∃ lexemes, Splits c.rest lexemes ∧ lexemes.map Lexeme.token = tokens := by
  induction bound generalizing c tokens with
  | zero =>
      cases scanned
      have empty : c.rest = [] := List.length_eq_zero_iff.1 (Nat.le_zero.1 enough)
      refine ⟨[], .blanks ?_, rfl⟩
      rw [empty]
      exact fun x inNone => nomatch inNone
  | succ bound ih =>
      rw [scanWithin] at scanned
      split at scanned
      · rename_i step
        cases scanned
        exact ⟨[], .blanks (isBlank_of_next_none step), rfl⟩
      · rename_i token after step
        have shorter := next_length_lt_of_eq step (by simp)
        obtain ⟨blanks, lexeme, areBlank, isToken, read, ends⟩ := next_sound step
        cases further : scanWithin bound after with
        | error fault =>
            rw [further] at scanned
            cases scanned
        | ok others =>
            rw [further] at scanned
            cases scanned
            obtain ⟨lexemes, onward, areTokens⟩ := ih (by omega) further
            refine ⟨lexeme :: lexemes, ?_, ?_⟩
            · rw [read]
              exact .lexeme areBlank ends onward
            · rw [List.map_cons, isToken, areTokens]
      · cases scanned

/-- A text has tokens exactly if it can be split into blanks and their lexemes. -/
theorem scan_eq_ok_iff {text : String} {tokens : List Token} :
    scan text = .ok tokens ↔
      ∃ lexemes, Splits text.toList lexemes ∧ lexemes.map Lexeme.token = tokens := by
  constructor
  · intro scanned
    exact splits_of_scanWithin (Nat.le_refl _) scanned
  · rintro ⟨lexemes, splits, rfl⟩
    exact scanAll_of_splits splits 0

end Token

end PathExpr
