import PathExpr.Proofs.Lexical.Basic
import PathExpr.Token.Progress

set_option autoImplicit false

namespace PathExpr.Token

def numeralDigits (n : Numeral) : List Char :=
  n.whole ++
    match n.fraction with
    | none => []
    | some digits => '.' :: digits

theorem chars_eq_numeralDigits (n : Numeral) :
    n.chars = (if n.negative then ['-'] else []) ++ numeralDigits n := by
  obtain ⟨negative, whole, fraction⟩ := n
  unfold Numeral.chars numeralDigits
  cases fraction with
  | none => exact List.append_assoc _ _ _
  | some digits => exact List.append_assoc _ _ _

theorem exists_digit {n : Numeral} (wellFormed : n.WellFormed) :
    ∃ first tail, numeralDigits n = first :: tail ∧ first.isDigit = true := by
  obtain ⟨first, tail, isCons⟩ := List.exists_cons_of_ne_nil wellFormed.whole_ne_nil
  have firstDigit : first.isDigit = true := by
    apply wellFormed.whole
    rw [isCons]
    exact List.mem_cons_self
  unfold numeralDigits
  rw [isCons]
  exact ⟨first, _, rfl, firstDigit⟩

theorem scanNumeral_append {n : Numeral} (wellFormed : n.WellFormed) {rest : List Char}
    (ends : ∀ c ∈ rest.head?, c.isDigit = false) (noPoint : n.fraction = none →
      rest.head? ≠ some '.') (position : Nat) :
    ∃ position', scanNumeral n.negative ⟨numeralDigits n ++ rest, position⟩ =
      (n, ⟨rest, position'⟩) := by
  obtain ⟨negative, whole, fraction⟩ := n
  unfold numeralDigits
  cases fraction with
  | none =>
      have run := Cursor.span_append wellFormed.whole ends position
      dsimp only at run ⊢
      simp only [List.append_nil, scanNumeral, run, Cursor.peek?, noPoint rfl, if_false]
      exact ⟨_, rfl⟩
  | some digits =>
      have ends' : ∀ c ∈ ('.' :: (digits ++ rest)).head?, c.isDigit = false := by
        intro c isHead
        cases isHead
        rfl
      have run := Cursor.span_append wellFormed.whole ends' position
      have run' := Cursor.span_append wellFormed.fraction ends (position + whole.length + 1)
      dsimp only [Option.getD] at run run' ⊢
      simp only [List.append_assoc, List.cons_append, scanNumeral, run, Cursor.peek?,
        List.head?_cons, if_true, Cursor.advance_cons, run']
      exact ⟨_, rfl⟩

theorem scanQuotedFrom_escape (chars rest : List Char) (position : Nat) :
    ∃ position', scanQuotedFrom position (Text.escape chars ++ '\'' :: rest) =
      (.ok chars, ⟨rest, position'⟩) := by
  induction chars generalizing position with
  | nil =>
      refine ⟨position + 1, ?_⟩
      show scanQuotedFrom position ('\'' :: rest) = _
      rw [scanQuotedFrom.eq_def]
      dsimp only
      rw [if_pos rfl]
  | cons c tail ih =>
      by_cases escaped : Text.isEscaped c = true
      · obtain ⟨position', scanned⟩ := ih (position + 2)
        refine ⟨position', ?_⟩
        rw [Text.escape, if_pos escaped, scanQuotedFrom.eq_def]
        dsimp only [List.cons_append]
        rw [if_neg (by decide), if_pos rfl, if_pos escaped, scanned]
        rfl
      · obtain ⟨position', scanned⟩ := ih (position + 1)
        have noQuote : c ≠ '\'' := by
          rintro rfl
          exact escaped rfl
        have noBackslash : c ≠ '\\' := by
          rintro rfl
          exact escaped rfl
        refine ⟨position', ?_⟩
        rw [Text.escape, if_neg escaped, scanQuotedFrom.eq_def]
        dsimp only [List.cons_append]
        rw [if_neg noQuote, if_neg noBackslash, scanned]
        rfl

theorem scanQuoted_escape (text : String) (rest : List Char) (position : Nat) :
    ∃ position', scanQuoted ⟨Text.escape text.toList ++ '\'' :: rest, position⟩ =
      (.ok text, ⟨rest, position'⟩) := by
  obtain ⟨position', scanned⟩ := scanQuotedFrom_escape text.toList rest position
  refine ⟨position', ?_⟩
  unfold scanQuoted
  dsimp only
  rw [scanned]
  show (Except.ok (String.ofList text.toList), _) = _
  rw [String.ofList_toList]

theorem isWordChar_of_isWord {chars : List Char} (isWord : Text.isWord chars = true) :
    ∀ c ∈ chars, Text.isWordChar c = true := by
  intro c inChars
  cases chars with
  | nil => cases inChars
  | cons first rest =>
      rw [Text.isWord, Bool.and_eq_true] at isWord
      rcases List.mem_cons.1 inChars with rfl | inRest
      · exact Text.isWordChar_of_isWordStart c isWord.1
      · exact List.all_eq_true.1 isWord.2 c inRest

theorem scanField_word {word : List Char} (isWord : Text.isWord word = true) {rest : List Char}
    (ends : ∀ c ∈ rest.head?, Text.isWordChar c = false) (position : Nat) :
    ∃ position', scanField ⟨word ++ rest, position⟩ =
      (.ok (.field (String.ofList word)), ⟨rest, position'⟩) := by
  have run := Cursor.span_append (isWordChar_of_isWord isWord) ends position
  cases word with
  | nil => cases isWord
  | cons first tail =>
      rw [Text.isWord, Bool.and_eq_true] at isWord
      simp only [scanField, Cursor.peek?, List.cons_append, List.head?_cons, isWord.1, if_true]
      rw [← List.cons_append, run]
      exact ⟨_, rfl⟩

theorem scanBracketed_quote (name : String) (rest : List Char) (position : Nat) :
    ∃ position', scanBracketed ⟨(Text.quote name).toList ++ ']' :: rest, position⟩ =
      (.ok (.field name), ⟨rest, position'⟩) := by
  obtain ⟨position', scanned⟩ := scanQuoted_escape name (']' :: rest) (position + 1)
  unfold Text.quote
  simp only [String.toList_ofList, List.cons_append, List.append_assoc, List.nil_append,
    scanBracketed, Cursor.peek?, List.head?_cons, if_true, Cursor.advance_cons, scanned]
  exact ⟨_, rfl⟩

theorem scanBracketed_digits {digits : List Char} (some : digits ≠ [])
    (areDigits : ∀ c ∈ digits, c.isDigit = true)
    (small : Nat.ofDigitChars 10 digits 0 < UInt64.size) (rest : List Char) (start : Nat) :
    ∃ position', scanBracketed ⟨digits ++ ']' :: rest, start⟩ =
      (.ok (.index (UInt64.ofNat (Nat.ofDigitChars 10 digits 0))), ⟨rest, position'⟩) := by
  let numeral : Numeral := ⟨false, digits, none⟩
  have wellFormed : numeral.WellFormed := ⟨some, areDigits, fun c inNone => nomatch inNone⟩
  have ends : ∀ c ∈ (']' :: rest).head?, c.isDigit = false := by
    intro c isHead
    cases isHead
    rfl
  have noPoint : (']' :: rest).head? ≠ Option.some '.' := by
    rw [List.head?_cons]
    decide
  obtain ⟨after, scanned⟩ := scanNumeral_append wellFormed ends (fun _ => noPoint) start
  have index : numeral.index? = Option.some (UInt64.ofNat (Nat.ofDigitChars 10 digits 0)) :=
    if_pos ⟨rfl, small⟩
  have isDigits : numeralDigits numeral = digits := List.append_nil _
  obtain ⟨first, tail, isCons, firstDigit⟩ := exists_digit wellFormed
  have noQuote : first ≠ '\'' := by
    rintro rfl
    cases firstDigit
  rw [isDigits] at isCons scanned
  dsimp only [numeral] at index scanned
  rw [isCons, List.cons_append] at scanned ⊢
  rw [isCons] at index
  simp only [scanBracketed, Cursor.peek?, List.head?_cons, noQuote, if_false, firstDigit, if_true,
    scanned, index, Scanned.andThen, scanClosing, Cursor.advance_cons]
  exact ⟨_, rfl⟩

theorem scanSegment?_step (step : Step) {rest : List Char}
    (ends : ∀ c ∈ rest.head?, step.further c = false) (position : Nat) :
    ∃ position', scanSegment? ⟨step.chars ++ rest, position⟩ =
      some (.ok step.segment, ⟨rest, position'⟩) := by
  cases step with
  | name word isWord =>
      obtain ⟨position', scanned⟩ := scanField_word isWord ends (position + 1)
      exact ⟨position', congrArg some scanned⟩
  | quoted field =>
      obtain ⟨position', scanned⟩ := scanBracketed_quote field rest (position + 1)
      refine ⟨position', ?_⟩
      rw [Step.chars, List.cons_append, List.cons_append, List.append_assoc]
      exact congrArg some scanned
  | index digits someDigits areDigits small =>
      obtain ⟨position', scanned⟩ :=
        scanBracketed_digits someDigits areDigits small rest (position + 1)
      refine ⟨position', ?_⟩
      rw [Step.chars, List.cons_append, List.cons_append, List.append_assoc]
      exact congrArg some scanned

/-- A step begins with a character that no step before it goes on with. -/
theorem further_head_step (before next : Step) (rest : List Char) :
    ∀ c ∈ (next.chars ++ rest).head?, before.further c = false := by
  intro c isHead
  cases next <;> cases isHead <;> cases before <;> rfl

theorem scanSegments_steps (steps : List Step) {rest : List Char}
    (ends : ∀ c ∈ rest.head?, (Lexeme.path steps).further c = false) (position : Nat) :
    ∃ position', scanSegments ⟨steps.flatMap Step.chars ++ rest, position⟩ =
      (.ok (steps.map Step.segment), ⟨rest, position'⟩) := by
  induction steps generalizing position with
  | nil =>
      have noStep : scanSegment? ⟨rest, position⟩ = none := by
        unfold scanSegment?
        split
        · rename_i isPoint
          cases ends '.' isPoint
        · rename_i isBracket
          cases ends '[' isBracket
        · rfl
      refine ⟨position, ?_⟩
      rw [scanSegments_eq, List.flatMap_nil, List.nil_append, noStep]
      rfl
  | cons first tail ih =>
      have endsFirst : ∀ c ∈ (tail.flatMap Step.chars ++ rest).head?, first.further c = false := by
        cases tail with
        | nil =>
            intro c isHead
            have outside := ends c isHead
            rw [Lexeme.further_path_singleton, Bool.or_eq_false_iff] at outside
            exact outside.2
        | cons second others =>
            rw [List.flatMap_cons, List.append_assoc]
            exact further_head_step first second _
      have endsTail : ∀ c ∈ rest.head?, (Lexeme.path tail).further c = false := by
        intro c isHead
        have outside := ends c isHead
        cases tail with
        | nil =>
            rw [Lexeme.further_path_singleton, Bool.or_eq_false_iff] at outside
            exact outside.1
        | cons second others =>
            rw [Lexeme.further_path_cons_cons] at outside
            exact outside
      obtain ⟨middle, scanned⟩ := scanSegment?_step first endsFirst position
      obtain ⟨position', further⟩ := ih endsTail middle
      refine ⟨position', ?_⟩
      rw [scanSegments_eq, List.flatMap_cons, List.append_assoc, scanned]
      dsimp only [Scanned.andThen]
      rw [further]
      rfl

theorem scanWord_keyword {word : String} {token : Token} (isWord : Text.isWord word.toList = true)
    (isKeyword : keywords.lookup word = some token) {rest : List Char}
    (ends : ∀ c ∈ rest.head?, Text.isWordChar c = false) (position : Nat) :
    ∃ position', scanWord ⟨word.toList ++ rest, position⟩ = (.ok token, ⟨rest, position'⟩) := by
  have run := Cursor.span_append (isWordChar_of_isWord isWord) ends position
  unfold scanWord
  rw [run]
  dsimp only
  rw [String.ofList_toList, isKeyword]
  exact ⟨_, rfl⟩

theorem next_cons {first : Char} (visible : Text.isBlank first = false) (tail : List Char)
    (position : Nat) :
    next ⟨first :: tail, position⟩ =
      (scanToken first ⟨first :: tail, position⟩).map some := by
  have ends : ∀ c ∈ (first :: tail).head?, Text.isBlank c = false := by
    intro c isHead
    cases isHead
    exact visible
  have run := @Cursor.span_append _ Text.isBlank [] _ (fun c inNone => nomatch inNone) ends position
  unfold next
  rw [List.nil_append] at run
  rw [run]
  rfl

/-- The characters, in front of `rest`, are read as the token. -/
def Spells (chars : List Char) (t : Token) (rest : List Char) : Prop :=
  ∃ first tail, chars = first :: tail ∧ Text.isBlank first = false ∧
    ∀ position, ∃ position',
      scanToken first ⟨chars ++ rest, position⟩ = (.ok t, ⟨rest, position'⟩)

theorem Spells.next_eq {chars : List Char} {t : Token} {rest : List Char}
    (spells : Spells chars t rest) (position : Nat) :
    ∃ position', next ⟨chars ++ rest, position⟩ = (.ok (some t), ⟨rest, position'⟩) := by
  obtain ⟨first, tail, isCons, visible, scanned⟩ := spells
  obtain ⟨position', scanned⟩ := scanned position
  refine ⟨position', ?_⟩
  rw [isCons, List.cons_append] at scanned ⊢
  rw [next_cons visible, scanned]
  rfl

theorem scanToken_operator {first : Char} {c : Cursor Char}
    (other : first ≠ '$' ∧ first ≠ '\'' ∧ first.isDigit = false ∧ Text.isWordStart first = false)
    (noNumber : ¬(first = '-' ∧ c.advance.peek?.any Char.isDigit = true)) :
    scanToken first c = scanOperator first c := by
  unfold scanToken
  rw [if_neg other.1, if_neg other.2.1, if_neg (by rw [other.2.2.1]; exact Bool.false_ne_true),
    if_neg noNumber, if_neg (by rw [other.2.2.2]; exact Bool.false_ne_true)]

theorem spells_alone {first : Char} {t : Token} (opening : opening? first = some (.alone t))
    (other : first ≠ '$' ∧ first ≠ '\'' ∧ first.isDigit = false ∧ Text.isWordStart first = false)
    (visible : Text.isBlank first = false) {rest : List Char}
    (noNumber : first ≠ '-' ∨ ∀ c ∈ rest.head?, c.isDigit = false) : Spells [first] t rest := by
  refine ⟨first, [], rfl, visible, fun position => ⟨position + 1, ?_⟩⟩
  rw [List.cons_append, List.nil_append, scanToken_operator other]
  · unfold scanOperator
    rw [opening]
    rfl
  · rintro ⟨isMinus, isNumber⟩
    have noDigit := noNumber.resolve_left (fun noMinus => noMinus isMinus)
    cases rest with
    | nil => cases isNumber
    | cons c tail =>
        rw [Cursor.advance_cons] at isNumber
        have isDigit : c.isDigit = true := isNumber
        rw [noDigit c rfl] at isDigit
        cases isDigit

theorem spells_twice {first : Char} {t : Token} (opening : opening? first = some (.twice t))
    (other : first ≠ '$' ∧ first ≠ '\'' ∧ first.isDigit = false ∧ Text.isWordStart first = false)
    (visible : Text.isBlank first = false) (noMinus : first ≠ '-') (rest : List Char) :
    Spells [first, first] t rest := by
  refine ⟨first, [first], rfl, visible, fun position => ⟨position + 1 + 1, ?_⟩⟩
  rw [scanToken_operator other (fun isNumber => noMinus isNumber.1)]
  simp only [scanOperator, opening, List.cons_append, List.nil_append, Cursor.advance_cons,
    Cursor.peek?, List.head?_cons, if_true]

theorem spells_comparison (op : Comparison) {rest : List Char}
    (ends : ∀ c ∈ rest.head?, (Token.comparison op).fixedFurther c = false) :
    Spells op.symbol.toList (.comparison op) rest := by
  have strict : (op = .less ∨ op = .greater) → ∀ position,
      (Cursor.mk rest position).peek? ≠ some '=' := by
    rintro (rfl | rfl) position isEqual
    · cases ends '=' isEqual
    · cases ends '=' isEqual
  cases op
  · refine ⟨'<', [], rfl, by decide, fun position => ⟨position + 1, ?_⟩⟩
    rw [scanToken_operator (by decide) (fun isNumber => absurd isNumber.1 (by decide))]
    show (if (Cursor.mk rest (position + 1)).peek? = some '=' then _ else _) = _
    rw [if_neg (strict (.inl rfl) _)]
    rfl
  · exact ⟨'<', ['='], rfl, by decide, fun position => ⟨position + 2, rfl⟩⟩
  · refine ⟨'>', [], rfl, by decide, fun position => ⟨position + 1, ?_⟩⟩
    rw [scanToken_operator (by decide) (fun isNumber => absurd isNumber.1 (by decide))]
    show (if (Cursor.mk rest (position + 1)).peek? = some '=' then _ else _) = _
    rw [if_neg (strict (.inr rfl) _)]
    rfl
  · exact ⟨'>', ['='], rfl, by decide, fun position => ⟨position + 2, rfl⟩⟩

theorem isBlank_eq_false {p : Char → Bool} (visible : Text.blanks.any p = false) {c : Char}
    (holds : p c = true) : Text.isBlank c = false := by
  apply Bool.eq_false_iff.2
  intro blank
  rw [Text.isBlank, List.contains_iff_mem] at blank
  exact List.any_eq_false.1 visible c blank holds

theorem isDigit_eq_false_of_isWordStart {c : Char} (start : Text.isWordStart c = true) :
    c.isDigit = false := by
  apply Bool.eq_false_iff.2
  intro isDigit
  delta Text.isWordStart Char.isAlpha Char.isUpper Char.isLower at start
  delta Char.isDigit at isDigit
  simp only [Bool.or_eq_true, Bool.and_eq_true, decide_eq_true_eq, beq_iff_eq,
    UInt32.le_iff_toNat_le, ge_iff_le, Char.reduceVal, UInt32.reduceToNat] at start isDigit
  rcases start with (upper | lower) | rfl
  · omega
  · omega
  · exact absurd isDigit (by decide)

theorem spells_keyword {word : String} {t : Token} (isWord : Text.isWord word.toList = true)
    (isKeyword : keywords.lookup word = some t) {rest : List Char}
    (ends : ∀ c ∈ rest.head?, Text.isWordChar c = false) :
    Spells word.toList t rest := by
  have scanned := scanWord_keyword isWord isKeyword ends
  generalize word.toList = chars at isWord scanned
  cases chars with
  | nil => cases isWord
  | cons first tail =>
      rw [Text.isWord, Bool.and_eq_true] at isWord
      have noDigit : ¬first.isDigit = true := by
        rw [isDigit_eq_false_of_isWordStart isWord.1]
        exact Bool.false_ne_true
      have other : first ≠ '$' ∧ first ≠ '\'' ∧ first ≠ '-' := by
        refine ⟨?_, ?_, ?_⟩ <;> rintro rfl <;> cases isWord.1
      refine ⟨first, tail, rfl, isBlank_eq_false (by decide) isWord.1, fun position => ?_⟩
      unfold scanToken
      rw [if_neg other.1, if_neg other.2.1, if_neg noDigit,
        if_neg (fun isNumber => other.2.2 isNumber.1), if_pos isWord.1]
      exact scanned position

theorem spells_path (steps : List Step) {rest : List Char}
    (ends : ∀ c ∈ rest.head?, (Lexeme.path steps).further c = false) :
    Spells (Lexeme.path steps).chars (Lexeme.path steps).token rest := by
  refine ⟨'$', steps.flatMap Step.chars, rfl, by decide, fun position => ?_⟩
  obtain ⟨position', scanned⟩ := scanSegments_steps steps ends (position + 1)
  refine ⟨position', ?_⟩
  rw [Lexeme.chars, List.cons_append, scanToken, if_pos rfl, Cursor.advance_cons, scanned]
  rfl

theorem spells_string (text : String) (rest : List Char) :
    Spells (Text.quote text).toList (.string text) rest := by
  have isCons : (Text.quote text).toList = '\'' :: (Text.escape text.toList ++ ['\'']) :=
    String.toList_ofList
  refine ⟨'\'', _, isCons, by decide, fun position => ?_⟩
  obtain ⟨position', scanned⟩ := scanQuoted_escape text rest (position + 1)
  refine ⟨position', ?_⟩
  rw [isCons, List.cons_append, List.append_assoc, scanToken, if_neg (by decide), if_pos rfl,
    Cursor.advance_cons]
  show (scanQuoted ⟨Text.escape text.toList ++ '\'' :: rest, position + 1⟩).map Token.string = _
  rw [scanned]
  rfl

theorem scanNumber_numeral {n : Numeral} (wellFormed : n.WellFormed) (finite : n.value.isFinite = true)
    {rest : List Char} (ends : ∀ c ∈ rest.head?, c.isDigit = false)
    (noPoint : n.fraction = none → rest.head? ≠ some '.') (start position : Nat) :
    ∃ position', scanNumber n.negative start ⟨numeralDigits n ++ rest, position⟩ =
      (.ok (.number n.value), ⟨rest, position'⟩) := by
  obtain ⟨position', scanned⟩ := scanNumeral_append wellFormed ends noPoint position
  refine ⟨position', ?_⟩
  unfold scanNumber
  rw [scanned]
  dsimp only
  rw [if_pos finite]

theorem spells_number {n : Numeral} (wellFormed : n.WellFormed) (finite : n.value.isFinite = true)
    {rest : List Char} (ends : ∀ c ∈ rest.head?, c.isDigit = false)
    (noPoint : n.fraction = none → rest.head? ≠ some '.') :
    Spells n.chars (.number n.value) rest := by
  have scanned := scanNumber_numeral wellFormed finite ends noPoint
  obtain ⟨first, tail, isCons, firstDigit⟩ := exists_digit wellFormed
  rw [chars_eq_numeralDigits]
  rw [isCons] at scanned ⊢
  cases negative : n.negative with
  | false =>
      rw [negative] at scanned
      refine ⟨first, tail, rfl, isBlank_eq_false (by decide) firstDigit, fun position => ?_⟩
      have other : first ≠ '$' ∧ first ≠ '\'' := by
        refine ⟨?_, ?_⟩ <;> rintro rfl <;> cases firstDigit
      obtain ⟨position', scanned⟩ := scanned position position
      refine ⟨position', ?_⟩
      rw [scanToken, if_neg other.1, if_neg other.2, if_pos firstDigit]
      exact scanned
  | true =>
      rw [negative] at scanned
      refine ⟨'-', first :: tail, rfl, by decide, fun position => ?_⟩
      obtain ⟨position', scanned⟩ := scanned position (position + 1)
      refine ⟨position', ?_⟩
      rw [scanToken, if_neg (by decide), if_neg (by decide), if_neg (by decide),
        if_pos ⟨rfl, firstDigit⟩]
      exact scanned

theorem spells_fixed {t : Token} (isFixed : t.isFixed = true) {rest : List Char}
    (ends : ∀ c ∈ rest.head?, t.fixedFurther c = false) : Spells t.text.toList t rest := by
  cases t with
  | path | number | string => cases isFixed
  | boolean b =>
      cases b
      · exact spells_keyword (by decide) rfl ends
      · exact spells_keyword (by decide) rfl ends
  | otherwise => exact spells_alone rfl (by decide) (by decide) (.inl (by decide))
  | minus => exact spells_alone rfl (by decide) (by decide) (.inr ends)
  | plus => exact spells_alone rfl (by decide) (by decide) (.inl (by decide))
  | star => exact spells_alone rfl (by decide) (by decide) (.inl (by decide))
  | slash => exact spells_alone rfl (by decide) (by decide) (.inl (by decide))
  | not => exact spells_alone rfl (by decide) (by decide) (.inl (by decide))
  | equal => exact spells_twice rfl (by decide) (by decide) (by decide) rest
  | comparison op => exact spells_comparison op ends
  | logical op spelling =>
      cases spelling with
      | symbol =>
          cases op
          · exact spells_twice rfl (by decide) (by decide) (by decide) rest
          · exact spells_twice rfl (by decide) (by decide) (by decide) rest
      | word =>
          cases op
          · exact spells_keyword (by decide) rfl ends
          · exact spells_keyword (by decide) rfl ends
  | function f =>
      cases f with
      | fold op =>
          cases op
          · exact spells_keyword (by decide) rfl ends
          · exact spells_keyword (by decide) rfl ends
      | length => exact spells_keyword (by decide) rfl ends
  | leftParen => exact spells_alone rfl (by decide) (by decide) (.inl (by decide))
  | rightParen => exact spells_alone rfl (by decide) (by decide) (.inl (by decide))
  | comma => exact spells_alone rfl (by decide) (by decide) (.inl (by decide))

/-- In front of anything that it would not go on with, a lexeme is read as its token. -/
theorem Lexeme.spells (lexeme : Lexeme) {rest : List Char}
    (ends : ∀ c ∈ rest.head?, lexeme.further c = false) :
    Spells lexeme.chars lexeme.token rest := by
  cases lexeme with
  | number n wellFormed x rounds =>
      obtain ⟨rfl, finite⟩ := Numeral.roundsTo_iff.1 rounds
      apply spells_number wellFormed finite
      · intro c isHead
        exact (Bool.or_eq_false_iff.1 (ends c isHead)).1
      · intro whole isPoint
        have outside : ('.'.isDigit || (n.fraction.isNone && '.' == '.')) = false :=
          ends '.' isPoint
        rw [whole] at outside
        cases outside
  | string s => exact spells_string s rest
  | path steps => exact spells_path steps ends
  | fixed t isFixed => exact spells_fixed isFixed ends

theorem scanAll_of_spells {chars rest : List Char} {t : Token} {tokens : List Token}
    (spells : Spells chars t rest)
    (further : ∀ position, scanAll ⟨rest, position⟩ = .ok tokens) (position : Nat) :
    scanAll ⟨chars ++ rest, position⟩ = .ok (t :: tokens) := by
  obtain ⟨position', isNext⟩ := spells.next_eq position
  rw [scanAll_eq, isNext]
  dsimp only
  rw [further position']
  rfl

theorem scanAll_blanks {blanks : List Char} (areBlank : ∀ c ∈ blanks, Text.isBlank c = true)
    (rest : List Char) (position : Nat) :
    scanAll ⟨blanks ++ rest, position⟩ = scanAll ⟨rest, position + blanks.length⟩ := by
  have same : next ⟨blanks ++ rest, position⟩ = next ⟨rest, position + blanks.length⟩ := by
    unfold next Cursor.span
    dsimp only
    rw [List.takeWhile_append_of_pos areBlank, List.dropWhile_append_of_pos areBlank,
      List.length_append, Nat.add_assoc]
  rw [scanAll_eq, scanAll_eq, same]

theorem scanAll_of_splits {chars : List Char} {lexemes : List Lexeme}
    (splits : Splits chars lexemes) (position : Nat) :
    scanAll ⟨chars, position⟩ = .ok (lexemes.map Lexeme.token) := by
  induction splits generalizing position with
  | blanks areBlank =>
      have skipped := scanAll_blanks areBlank [] position
      rw [List.append_nil] at skipped
      exact skipped
  | lexeme areBlank ends _ ih =>
      rw [List.append_assoc, scanAll_blanks areBlank]
      exact scanAll_of_spells (Lexeme.spells _ ends) ih _

end PathExpr.Token
