import PathExpr.Proofs.Lexical.Complete

set_option autoImplicit false

namespace PathExpr.Token

/-- The characters that no token goes on with. -/
def boundaries : List Char := Text.blanks ++ ['(', ')', ',']

theorem eq_false_of_boundary {p : Char → Bool} (outside : boundaries.any p = false) {c : Char}
    (boundary : c ∈ boundaries) : p c = false :=
  Bool.eq_false_iff.2 (List.any_eq_false.1 outside c boundary)

theorem boundary_of_isBlank {c : Char} (blank : Text.isBlank c = true) : c ∈ boundaries := by
  rw [Text.isBlank, List.contains_iff_mem] at blank
  exact List.mem_append_left _ blank

theorem Step.further_eq_false (step : Step) {c : Char} (boundary : c ∈ boundaries) :
    step.further c = false := by
  cases step with
  | name => exact eq_false_of_boundary (p := Text.isWordChar) (by decide) boundary
  | quoted => rfl
  | index => rfl

theorem fixedFurther_eq_false (t : Token) {c : Char} (boundary : c ∈ boundaries) :
    t.fixedFurther c = false := by
  have noWord : Text.isWordChar c = false := eq_false_of_boundary (by decide) boundary
  have noDigit : c.isDigit = false := eq_false_of_boundary (by decide) boundary
  have noEqual : (c == '=') = false :=
    eq_false_of_boundary (p := fun c => c == '=') (by decide) boundary
  unfold fixedFurther
  split
  · exact noWord
  · exact noWord
  · exact noWord
  · exact noDigit
  · exact noEqual
  · exact noEqual
  · rfl

theorem Lexeme.further_eq_false (lexeme : Lexeme) {c : Char} (boundary : c ∈ boundaries) :
    lexeme.further c = false := by
  have noPoint : (c == '.') = false :=
    eq_false_of_boundary (p := fun c => c == '.') (by decide) boundary
  cases lexeme with
  | number n =>
      have noDigit : c.isDigit = false := eq_false_of_boundary (by decide) boundary
      rw [further, noDigit, noPoint, Bool.and_false, Bool.or_false]
  | string => rfl
  | path steps =>
      have noBracket : (c == '[') = false :=
        eq_false_of_boundary (p := fun c => c == '[') (by decide) boundary
      rw [further, noPoint, noBracket, Bool.or_false, Bool.false_or, Option.any_eq_false]
      intro last _
      exact last.further_eq_false boundary
  | fixed t => exact t.fixedFurther_eq_false boundary

/-- Whether the token has a spelling: only numbers that are not finite have none. -/
def isReadable : Token → Bool
  | number x => x.isFinite
  | _ => true

theorem Lexeme.isReadable_token (lexeme : Lexeme) : lexeme.token.isReadable = true := by
  cases lexeme with
  | number _ _ _ rounds => exact rounds.finite
  | string => rfl
  | path => rfl
  | fixed t isFixed =>
      cases t with
      | number => cases isFixed
      | _ => rfl

theorem exists_step (s : Segment) :
    ∃ step : Step, step.segment = s ∧ step.chars = s.text.toList := by
  cases s with
  | field name =>
      by_cases isWord : Text.isWord name.toList = true
      · refine ⟨.name name.toList isWord, ?_, ?_⟩
        · rw [Step.segment, String.ofList_toList]
        · rw [Segment.text, if_pos isWord, String.toList_append]
          rfl
      · refine ⟨.quoted name, rfl, ?_⟩
        rw [Segment.text, if_neg isWord, String.toList_append, String.toList_append]
        rfl
  | index position =>
      have isPosition : Nat.ofDigitChars 10 (Nat.toDigits 10 position.toNat) 0 = position.toNat :=
        Nat.ofDigitChars_ten_toDigits
      have small : Nat.ofDigitChars 10 (Nat.toDigits 10 position.toNat) 0 < UInt64.size := by
        rw [isPosition]
        exact position.toNat_lt
      refine ⟨.index _ Nat.toDigits_ne_nil (fun _ => Decimal.isDigit_of_mem_digits) small, ?_, ?_⟩
      · rw [Step.segment, isPosition, UInt64.ofNat_toNat]
      · simp only [Segment.text, String.toList_append, String.toList_ofList]
        rfl

theorem exists_steps (segments : List Segment) :
    ∃ steps : List Step, steps.map Step.segment = segments ∧
      steps.flatMap Step.chars = segments.flatMap fun s => s.text.toList := by
  induction segments with
  | nil => exact ⟨[], rfl, rfl⟩
  | cons s rest ih =>
      obtain ⟨step, isSegment, chars⟩ := exists_step s
      obtain ⟨steps, areSegments, charsRest⟩ := ih
      refine ⟨step :: steps, ?_, ?_⟩
      · rw [List.map_cons, isSegment, areSegments]
      · rw [List.flatMap_cons, List.flatMap_cons, chars, charsRest]

theorem exists_lexeme {t : Token} (readable : t.isReadable = true) :
    ∃ lexeme : Lexeme, lexeme.token = t ∧ lexeme.chars = t.text.toList := by
  cases t with
  | path p =>
      obtain ⟨steps, areSegments, chars⟩ := exists_steps p.segments
      refine ⟨.path steps, ?_, ?_⟩
      · rw [Lexeme.token, areSegments]
      · rw [Lexeme.chars, chars, text, Path.text, String.toList_append, String.toList_join,
          List.flatMap_map]
        rfl
  | number x =>
      have rounds := Numeral.roundsTo_iff.2 ⟨value_numeralOf readable, readable⟩
      refine ⟨.number (numeralOf x) (wellFormed_numeralOf x) x rounds, rfl, ?_⟩
      rw [text, numberText_eq readable, Numeral.text, String.toList_ofList]
      rfl
  | string s => exact ⟨.string s, rfl, rfl⟩
  | _ => exact ⟨.fixed _ rfl, rfl, rfl⟩

/-- Nothing that a token could go on with. -/
def Bounded (rest : List Char) : Prop := ∀ c ∈ rest.head?, c ∈ boundaries

theorem bounded_nil : Bounded [] := fun _ inNone => nomatch inNone

theorem bounded_cons {c : Char} {rest : List Char} (boundary : c ∈ boundaries) :
    Bounded (c :: rest) := by
  intro first isFirst
  cases isFirst
  exact boundary

theorem spells_text {t : Token} (readable : t.isReadable = true) {rest : List Char}
    (bounded : Bounded rest) : Spells t.text.toList t rest := by
  obtain ⟨lexeme, rfl, chars⟩ := exists_lexeme readable
  rw [← chars]
  exact lexeme.spells fun c isHead => lexeme.further_eq_false (bounded c isHead)

/-- The texts of tokens, each behind its blanks, with `trailing` at the end. -/
def spacedText (items : List (String × Token)) (trailing : String) : String :=
  String.join (items.map fun item => item.1 ++ item.2.text) ++ trailing

/-- Tokens that have spellings, with nothing but blanks around them and at least one between any
two. -/
structure WellSpaced (items : List (String × Token)) (trailing : String) : Prop where
  readable : ∀ item ∈ items, item.2.isReadable = true
  blank : ∀ item ∈ items, ∀ c ∈ item.1.toList, Text.isBlank c = true
  apart : ∀ item ∈ items.tail, item.1 ≠ ""
  trailing : ∀ c ∈ trailing.toList, Text.isBlank c = true

theorem toList_spacedText_nil (trailing : String) :
    (spacedText [] trailing).toList = trailing.toList := by
  simp only [spacedText, List.map_nil, String.toList_append, String.toList_join,
    List.flatMap_nil, List.nil_append]

theorem toList_spacedText_cons (item : String × Token) (rest : List (String × Token))
    (trailing : String) :
    (spacedText (item :: rest) trailing).toList =
      item.1.toList ++ item.2.text.toList ++ (spacedText rest trailing).toList := by
  simp only [spacedText, List.map_cons, String.toList_append, String.toList_join,
    List.flatMap_cons, List.append_assoc]

namespace WellSpaced

variable {item : String × Token} {rest : List (String × Token)} {trailing : String}

theorem of_cons (spaced : WellSpaced (item :: rest) trailing) : WellSpaced rest trailing where
  readable other inRest := spaced.readable other (List.mem_cons_of_mem item inRest)
  blank other inRest := spaced.blank other (List.mem_cons_of_mem item inRest)
  apart other inTail := spaced.apart other (List.mem_of_mem_tail inTail)
  trailing := spaced.trailing

theorem isBlank_of_head (spaced : WellSpaced (item :: rest) trailing) :
    ∀ c ∈ (spacedText rest trailing).toList.head?, Text.isBlank c = true := by
  intro c isHead
  cases rest with
  | nil =>
      rw [toList_spacedText_nil] at isHead
      exact spaced.trailing c (List.mem_of_mem_head? isHead)
  | cons second others =>
      have some : second.1.toList ≠ [] :=
        fun none => spaced.apart second List.mem_cons_self (String.toList_eq_nil_iff.1 none)
      obtain ⟨first, tail, isCons⟩ := List.exists_cons_of_ne_nil some
      rw [toList_spacedText_cons, isCons] at isHead
      cases isHead
      apply spaced.blank second (List.mem_cons_of_mem item List.mem_cons_self)
      rw [isCons]
      exact List.mem_cons_self

theorem exists_splits {items : List (String × Token)} (spaced : WellSpaced items trailing) :
    ∃ lexemes, Splits (spacedText items trailing).toList lexemes ∧
      lexemes.map Lexeme.token = items.map Prod.snd := by
  induction items with
  | nil =>
      refine ⟨[], .blanks ?_, rfl⟩
      rw [toList_spacedText_nil]
      exact spaced.trailing
  | cons item rest ih =>
      obtain ⟨lexeme, isToken, chars⟩ := exists_lexeme (spaced.readable item List.mem_cons_self)
      obtain ⟨lexemes, onward, areTokens⟩ := ih spaced.of_cons
      refine ⟨lexeme :: lexemes, ?_, ?_⟩
      · rw [toList_spacedText_cons, ← chars]
        apply Splits.lexeme (spaced.blank item List.mem_cons_self) _ onward
        intro c isHead
        exact lexeme.further_eq_false (boundary_of_isBlank (spaced.isBlank_of_head c isHead))
      · rw [List.map_cons, List.map_cons, isToken, areTokens]

end WellSpaced

/-- Scanning undoes printing, whatever blanks stand around the tokens. A path alone needs none. -/
theorem scan_spacedText_and_path_text :
    (∀ (items : List (String × Token)) (trailing : String), WellSpaced items trailing →
        scan (spacedText items trailing) = .ok (items.map Prod.snd)) ∧
      ∀ p : Path, scan p.text = .ok [.path p] := by
  have scanned {items : List (String × Token)} {trailing : String}
      (spaced : WellSpaced items trailing) :
      scan (spacedText items trailing) = .ok (items.map Prod.snd) := by
    obtain ⟨lexemes, splits, areTokens⟩ := spaced.exists_splits
    rw [← areTokens]
    exact scanAll_of_splits splits 0
  refine ⟨fun _ _ => scanned, fun p => ?_⟩
  have alone : WellSpaced [("", .path p)] "" := by
    constructor <;> simp [isReadable]
  have isText : spacedText [("", .path p)] "" = p.text := by
    simp [spacedText, text]
  rw [← isText]
  exact scanned alone

/-- Quotes and backslashes in a name and in a string, a keyword as a name, the last position and a
negative zero, with blanks of many sorts around them. -/
theorem scan_spacedText_unusual :
    let p : Path := ⟨[.field "it's", .field "or", .field "", .index 18446744073709551615]⟩
    let items := [("", path p), ("\u3000", number (-0.0)), ("\n\t", string "\\'"), (" ", minus),
      ("\u2028", number 0.5)]
    spacedText items " " =
        "$['it\\'s'].or[''][18446744073709551615]\u3000-0\n\t'\\\\\\'' -\u20280.5 " ∧
      WellSpaced items " " ∧
      scan "$['it\\'s'].or[''][18446744073709551615]\u3000-0\n\t'\\\\\\'' -\u20280.5 " =
        .ok (items.map Prod.snd) ∧
      scan "$['it\\'s'].or[''][18446744073709551615]" = .ok [path p] := by
  intro p items
  have isText : spacedText items " " =
      "$['it\\'s'].or[''][18446744073709551615]\u3000-0\n\t'\\\\\\'' -\u20280.5 " := by
    decide +kernel
  have isPath : p.text = "$['it\\'s'].or[''][18446744073709551615]" := by decide +kernel
  have blank : items.all (fun item => item.1.toList.all Text.isBlank) = true := by decide +kernel
  have trailing : " ".toList.all Text.isBlank = true := by decide +kernel
  have spaced : WellSpaced items " " :=
    ⟨by decide +kernel, fun _ inItems => List.all_eq_true.1 (List.all_eq_true.1 blank _ inItems),
      by decide +kernel, List.all_eq_true.1 trailing⟩
  have scanned := scan_spacedText_and_path_text.1 items " " spaced
  have scannedPath := scan_spacedText_and_path_text.2 p
  rw [isText] at scanned
  rw [isPath] at scannedPath
  exact ⟨isText, spaced, scanned, scannedPath⟩

end PathExpr.Token
