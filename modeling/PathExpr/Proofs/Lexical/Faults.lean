import PathExpr.Proofs.Lexical.Sound

set_option autoImplicit false

namespace PathExpr.Token

/-- What a fault says of the characters of the text. -/
def Fault.PointsInto (chars : List Char) : Fault → Prop
  | unexpectedEnd position => position = chars.length
  | unexpectedChar found position => chars[position]? = some found
  | unexpectedAfter found after position =>
      chars[position]? = some found ∧ found ≠ after ∧
        ∃ before, position = before + 1 ∧ chars[before]? = some after
  | invalidKeyStart found position =>
      chars[position]? = some found ∧ found.isAlpha = false ∧ found ≠ '_' ∧
        ∃ before, position = before + 1 ∧ chars[before]? = some '.'
  | invalidNumber text position =>
      text.toList <+: chars.drop position ∧ ∃ n : Numeral, n.WellFormed ∧ n.text = text
  | unknownWord name position =>
      name.toList <+: chars.drop position ∧
        (∀ c ∈ chars[position + name.length]?, Text.isWordChar c = false) ∧
        Text.isWord name.toList = true ∧
        name ∉ ["true", "false", "sum", "product", "length", "and", "or"]
  | invalidEscape found position =>
      chars[position]? = some found ∧ found ≠ '\'' ∧ found ≠ '\\' ∧
        ∃ before, position = before + 1 ∧ chars[before]? = some '\\'

/-- What holds of the fault, if there is one, and of the cursor that the reader stops at. -/
def Scanned.OnFault {α : Type} (p : Fault → Cursor Char → Prop) (s : Scanned α) : Prop :=
  ∀ fault, s.1 = .error fault → p fault s.2

namespace Scanned.OnFault

variable {α β : Type} {p : Fault → Cursor Char → Prop}

theorem ok (a : α) (after : Cursor Char) : OnFault p (.ok a, after) := by
  intro fault failed
  cases failed

theorem error {fault : Fault} (after : Cursor Char) (holds : p fault after) :
    OnFault p ((.error fault, after) : Scanned α) := by
  intro fault' failed
  cases failed
  exact holds

theorem map {s : Scanned α} (holds : s.OnFault p) (f : α → β) : (s.map f).OnFault p := by
  intro fault failed
  obtain ⟨result, after⟩ := s
  cases result with
  | ok a => cases failed
  | error fault' =>
      cases failed
      exact holds fault rfl

theorem andThen {s : Scanned α} {next : α → Cursor Char → Scanned β} (holds : s.OnFault p)
    (onward : ∀ a, s.1 = .ok a → (next a s.2).OnFault p) : (s.andThen next).OnFault p := by
  intro fault failed
  obtain ⟨result, after⟩ := s
  cases result with
  | ok a => exact onward a rfl fault failed
  | error fault' =>
      cases failed
      exact holds fault rfl

end Scanned.OnFault

/-- If nothing could be read, the fault points into the text. -/
def Scanned.Pinpoints {α : Type} (chars : List Char) (s : Scanned α) : Prop :=
  ∀ fault, s.1 = .error fault → fault.PointsInto chars

theorem Scanned.pinpoints_iff {α : Type} {chars : List Char} {s : Scanned α} :
    s.Pinpoints chars ↔ s.OnFault fun fault _ => fault.PointsInto chars := Iff.rfl

section

open Cursor (ofList)

variable {α β : Type} {chars : List Char} {c : Cursor Char}

namespace Scanned.Pinpoints

theorem ok (a : α) (after : Cursor Char) : Pinpoints chars (.ok a, after) :=
  pinpoints_iff.2 (OnFault.ok a after)

theorem error {fault : Fault} (after : Cursor Char) (points : fault.PointsInto chars) :
    Pinpoints chars ((.error fault, after) : Scanned α) :=
  pinpoints_iff.2 (OnFault.error after points)

theorem map {s : Scanned α} (pinpoints : s.Pinpoints chars) (f : α → β) :
    (s.map f).Pinpoints chars :=
  pinpoints_iff.2 ((pinpoints_iff.1 pinpoints).map f)

theorem andThen {s : Scanned α} {next : α → Cursor Char → Scanned β}
    (pinpoints : s.Pinpoints chars) (onward : ∀ a, s.1 = .ok a → (next a s.2).Pinpoints chars) :
    (s.andThen next).Pinpoints chars :=
  pinpoints_iff.2 ((pinpoints_iff.1 pinpoints).andThen onward)

theorem atEnd (reached : (ofList chars).Reaches c) (isEnd : c.peek? = none)
    (after : Cursor Char) :
    Pinpoints chars ((.error (.unexpectedEnd c.position), after) : Scanned α) := by
  have isWhole := reached.position_add_length
  have empty : c.rest = [] := List.head?_eq_none_iff.1 isEnd
  rw [empty, List.length_nil, Nat.add_zero] at isWhole
  exact .error after (isWhole.trans (Nat.zero_add _))

theorem atChar (reached : (ofList chars).Reaches c) {found : Char}
    (isFirst : c.peek? = some found) (after : Cursor Char) :
    Pinpoints chars ((.error (.unexpectedChar found c.position), after) : Scanned α) :=
  .error after (reached.getElem?_position.trans isFirst)

end Scanned.Pinpoints

open Scanned (Pinpoints)

/-- The character at the cursor and the one behind it, where the cursor is when it has moved. -/
theorem getElem?_before_advance (reached : (ofList chars).Reaches c) {first second : Char}
    (isFirst : c.peek? = some first) (isSecond : c.advance.peek? = some second) :
    chars[c.advance.position]? = some second ∧
      ∃ before, c.advance.position = before + 1 ∧ chars[before]? = some first := by
  have moved := reached.trans c.reaches_advance
  refine ⟨moved.getElem?_position.trans isSecond, c.position, Cursor.advance_position isFirst, ?_⟩
  exact reached.getElem?_position.trans isFirst

theorem scanQuotedFrom_pinpoints {position : Nat} {inside : List Char}
    (reached : (ofList chars).Reaches ⟨inside, position⟩) :
    (scanQuotedFrom position inside).Pinpoints chars := by
  fun_induction scanQuotedFrom position inside with
  | case1 => exact Pinpoints.atEnd reached rfl _
  | case2 => exact .ok _ _
  | case3 position =>
      have moved := reached.trans (Cursor.reaches_advance _)
      exact Pinpoints.atEnd moved rfl _
  | case4 position escaped rest isEscaped _ ih =>
      exact (ih (reached.trans ⟨['\\', escaped], rfl, rfl⟩)).map _
  | case5 position escaped rest notEscaped =>
      refine .error _ ?_
      obtain ⟨here, before⟩ := getElem?_before_advance reached rfl rfl
      simp only [Text.isEscaped, Bool.or_eq_true, beq_iff_eq, not_or] at notEscaped
      exact ⟨here, notEscaped.1, notEscaped.2, before⟩
  | case6 position c rest _ _ ih => exact (ih (reached.trans ⟨[c], rfl, rfl⟩)).map _

theorem scanQuoted_pinpoints (reached : (ofList chars).Reaches c) :
    (scanQuoted c).Pinpoints chars :=
  (scanQuotedFrom_pinpoints reached).map _

/-- The text of a numeral that is read stands where its digits begin, or where its sign does. -/
theorem scanNumeral_text {negative : Bool} {start : Nat} {first : Char} {n : Numeral}
    {after : Cursor Char} (isFirst : c.peek? = some first) (digit : first.isDigit = true)
    (begins : chars.drop start = (if negative then ['-'] else []) ++ c.rest)
    (scanned : scanNumeral negative c = (n, after)) :
    n.WellFormed ∧ n.text.toList <+: chars.drop start := by
  obtain ⟨rest, isCons⟩ := Cursor.peek?_eq_some isFirst
  obtain ⟨rfl, wellFormed, run, -⟩ := scanNumeral_sound isCons digit scanned
  refine ⟨wellFormed, ⟨after.rest, ?_⟩⟩
  rw [Numeral.text, String.toList_ofList, chars_eq_numeralDigits, List.append_assoc, ← run, begins]

theorem scanNumber_pinpoints {negative : Bool} {start : Nat} {first : Char}
    (isFirst : c.peek? = some first) (digit : first.isDigit = true)
    (begins : chars.drop start = (if negative then ['-'] else []) ++ c.rest) :
    (scanNumber negative start c).Pinpoints chars := by
  unfold scanNumber
  cases scanned : scanNumeral negative c with
  | mk n after =>
      obtain ⟨wellFormed, isText⟩ := scanNumeral_text isFirst digit begins scanned
      dsimp only
      split
      · exact .ok _ _
      · exact .error _ ⟨isText, n, wellFormed, rfl⟩

theorem isWord_span {first : Char} (isFirst : c.peek? = some first)
    (start : Text.isWordStart first = true) :
    Text.isWord (c.span Text.isWordChar).1 = true := by
  obtain ⟨rest, isCons⟩ := Cursor.peek?_eq_some isFirst
  show Text.isWord (c.rest.takeWhile Text.isWordChar) = true
  rw [isCons, List.takeWhile_cons_of_pos (Text.isWordChar_of_isWordStart first start), Text.isWord,
    start]
  exact List.all_takeWhile

theorem scanWord_pinpoints (reached : (ofList chars).Reaches c) {first : Char}
    (isFirst : c.peek? = some first) (start : Text.isWordStart first = true) :
    (scanWord c).Pinpoints chars := by
  have run := (c.reads_span Text.isWordChar).1
  have stops := c.span_stops Text.isWordChar
  have isWord := isWord_span isFirst start
  unfold scanWord
  generalize c.span Text.isWordChar = read at run stops isWord
  obtain ⟨word, after⟩ := read
  dsimp only at run stops isWord ⊢
  rw [← reached.drop_position] at run
  split
  · exact .ok _ _
  · rename_i noKeyword
    refine .error _ ⟨?_, ?_, ?_, ?_⟩
    · rw [String.toList_ofList, run]
      exact List.prefix_append word after.rest
    · rw [String.length_ofList, ← List.getElem?_drop, run,
        List.getElem?_append_right (Nat.le_refl _), Nat.sub_self, ← List.head?_eq_getElem?]
      exact stops
    · rw [String.toList_ofList]
      exact isWord
    · have others := List.lookup_eq_none_iff.1 noKeyword
      simp only [keywords, List.forall_mem_cons, bne_iff_ne] at others
      simp [others]

theorem scanClosing_pinpoints (reached : (ofList chars).Reaches c) (wanted : Char) :
    (scanClosing wanted c).Pinpoints chars := by
  unfold scanClosing
  split
  · rename_i isEnd
    exact .atEnd reached isEnd _
  · rename_i found isFirst
    split
    · exact .ok _ _
    · exact .atChar reached isFirst _

theorem scanField_pinpoints (reached : (ofList chars).Reaches c) (isPoint : c.peek? = some '.') :
    (scanField c.advance).Pinpoints chars := by
  unfold scanField
  split
  · rename_i isEnd
    exact .atEnd (reached.trans c.reaches_advance) isEnd _
  · rename_i first isFirst
    split
    · exact .ok _ _
    · rename_i noStart
      obtain ⟨here, before⟩ := getElem?_before_advance reached isPoint isFirst
      simp only [Text.isWordStart, Bool.or_eq_true, beq_iff_eq, not_or,
        Bool.not_eq_true] at noStart
      exact .error _ ⟨here, noStart.1, noStart.2, before⟩

theorem scanBracketed_pinpoints (reached : (ofList chars).Reaches c) :
    (scanBracketed c).Pinpoints chars := by
  have onward : ∀ s : Scanned Segment, (ofList chars).Reaches s.2 → s.Pinpoints chars →
      (s.andThen fun segment after =>
        (scanClosing ']' after).map fun _ => segment).Pinpoints chars :=
    fun s reached inside => inside.andThen fun _ _ => (scanClosing_pinpoints reached ']').map _
  unfold scanBracketed
  dsimp only
  split
  · rename_i isEnd
    exact onward _ reached (.atEnd reached isEnd _)
  · rename_i first isFirst
    have moved := reached.trans c.reaches_advance
    split
    · exact onward _ (moved.trans (reaches_scanQuoted _)) ((scanQuoted_pinpoints moved).map _)
    · split
      · rename_i digit
        have stop := reached.trans (reaches_scanNumeral false c)
        cases scanned : scanNumeral false c with
        | mk n after =>
            obtain ⟨wellFormed, isText⟩ :=
              scanNumeral_text isFirst digit reached.drop_position scanned
            rw [scanned] at stop
            dsimp only
            split
            · exact onward _ stop (.ok _ _)
            · exact onward _ stop (.error _ ⟨isText, n, wellFormed, rfl⟩)
      · exact onward _ moved (.atChar reached isFirst _)

theorem scanSegment?_pinpoints (reached : (ofList chars).Reaches c) {s : Scanned Segment}
    (scanned : scanSegment? c = some s) : s.Pinpoints chars := by
  unfold scanSegment? at scanned
  split at scanned
  · rename_i isPoint
    cases scanned
    exact scanField_pinpoints reached isPoint
  · cases scanned
    exact scanBracketed_pinpoints (reached.trans c.reaches_advance)
  · cases scanned

theorem scanSegmentsWithin_pinpoints (reached : (ofList chars).Reaches c) (bound : Nat) :
    (scanSegmentsWithin bound c).Pinpoints chars := by
  induction bound generalizing c with
  | zero => exact .ok _ _
  | succ bound ih =>
      unfold scanSegmentsWithin
      split
      · exact .ok _ _
      · rename_i step scanned
        refine (scanSegment?_pinpoints reached scanned).andThen fun segment _ => ?_
        exact (ih (reached.trans (reaches_scanSegment? scanned))).map _

theorem scanOperator_pinpoints (reached : (ofList chars).Reaches c) {first : Char}
    (isFirst : c.peek? = some first) : (scanOperator first c).Pinpoints chars := by
  unfold scanOperator
  dsimp only
  split
  · exact .atChar reached isFirst _
  · exact .ok _ _
  · split <;> exact .ok _ _
  · split
    · rename_i isEnd
      exact .atEnd (reached.trans c.reaches_advance) isEnd _
    · rename_i second isSecond
      split
      · exact .ok _ _
      · rename_i differ
        obtain ⟨here, before⟩ := getElem?_before_advance reached isFirst isSecond
        exact .error _ ⟨here, differ, before⟩

theorem scanToken_pinpoints (reached : (ofList chars).Reaches c) {first : Char}
    (isFirst : c.peek? = some first) : (scanToken first c).Pinpoints chars := by
  have moved := reached.trans c.reaches_advance
  unfold scanToken
  split
  · exact (scanSegmentsWithin_pinpoints moved _).map _
  · split
    · exact (scanQuoted_pinpoints moved).map _
    · split
      · rename_i digit
        exact scanNumber_pinpoints isFirst digit reached.drop_position
      · split
        · rename_i isNumber
          obtain ⟨digit, isSecond, isDigit⟩ := (Option.any_eq_true _ _).1 isNumber.2
          refine scanNumber_pinpoints isSecond isDigit ?_
          rw [reached.drop_position, (Cursor.reads_advance_of_peek? isFirst).1, isNumber.1]
          rfl
        · split
          · rename_i start
            exact scanWord_pinpoints reached isFirst start
          · exact scanOperator_pinpoints reached isFirst

theorem next_pinpoints (reached : (ofList chars).Reaches c) : (next c).Pinpoints chars := by
  have skipped := reached.trans (c.reaches_span Text.isBlank)
  unfold next
  dsimp only
  split
  · exact .ok _ _
  · rename_i first isFirst
    exact (scanToken_pinpoints skipped isFirst).map _

theorem scanWithin_pinpoints (reached : (ofList chars).Reaches c) {bound : Nat} {fault : Fault}
    (failed : scanWithin bound c = .error fault) : fault.PointsInto chars := by
  induction bound generalizing c with
  | zero => cases failed
  | succ bound ih =>
      have moved := reached.trans (reaches_next c)
      unfold scanWithin at failed
      split at failed
      · cases failed
      · rename_i token after step
        rw [step] at moved
        cases further : scanWithin bound after with
        | ok tokens =>
            rw [further] at failed
            cases failed
        | error fault' =>
            rw [further] at failed
            cases failed
            exact ih moved further
      · rename_i fault' after step
        cases failed
        exact next_pinpoints reached fault (congrArg Prod.fst step)

end

/-- Why a text has no tokens is said at the place that it is seen. -/
theorem scan_fault_pointsInto {text : String} {fault : Fault} (failed : scan text = .error fault) :
    fault.PointsInto text.toList :=
  scanWithin_pinpoints (Cursor.Reaches.refl _) failed

/-- Characters are counted as such, whatever they take in memory, and the fault names the one behind
the point. -/
theorem scan_fault_pointsInto_keyStart :
    scan "'😀' $.a.1" = .error (.invalidKeyStart '1' 8) ∧
      (Fault.invalidKeyStart '1' 8).PointsInto "'😀' $.a.1".toList := by
  have failed : scan "'😀' $.a.1" = .error (.invalidKeyStart '1' 8) := by decide +kernel
  exact ⟨failed, scan_fault_pointsInto failed⟩

end PathExpr.Token
