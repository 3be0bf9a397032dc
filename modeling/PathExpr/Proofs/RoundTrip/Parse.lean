import PathExpr.Proofs.Grammar.Complete
import PathExpr.Proofs.Lexical.Sound
import PathExpr.Proofs.RoundTrip.Written

set_option autoImplicit false

namespace PathExpr

namespace Expr

/-- The tokens of a text have spellings, so their numbers are finite. -/
theorem finiteNumbers_of_scan {text : String} {tokens : List Token}
    (scanned : Token.scan text = .ok tokens) : FiniteNumbers tokens := by
  obtain ⟨lexemes, -, rfl⟩ := Token.splits_of_scanWithin (Nat.le_refl _) scanned
  intro x isNumber
  obtain ⟨lexeme, -, isToken⟩ := List.mem_map.1 isNumber
  have readable := lexeme.isReadable_token
  rw [isToken] at readable
  exact readable

theorem parse_eq_ok_iff {text : String} {e : Tree} :
    parse text = .ok e ↔ ∃ tokens, Token.scan text = .ok tokens ∧ ofTokens tokens = .ok e := by
  simp only [parse, bind_eq_ok, mapError_eq_ok]

theorem canonical_of_parse {text : String} {e : Tree} (parsed : parse text = .ok e) :
    Canonical e := by
  obtain ⟨tokens, scanned, read⟩ := parse_eq_ok_iff.1 parsed
  exact (derives_of_ofTokens read).canonical (finiteNumbers_of_scan scanned)

theorem parse_of_canonical {e : Tree} (canonical : Canonical e) : parse e.text = .ok e := by
  have phrase := canonical.derives
  rw [untyped_none] at phrase
  exact parse_eq_ok_iff.2 ⟨e.tokens, scan_text e, ofTokens_of_derives (phrase.loosen (by decide))⟩

/-- Writing and reading are inverse to each other on exactly the trees that reading can give. -/
theorem parse_canonical_and_parse_text :
    (∀ (text : String) (e : Tree), parse text = .ok e → Canonical e) ∧
      ∀ e : Tree, Canonical e → parse e.text = .ok e :=
  ⟨fun _ _ => canonical_of_parse, fun _ => parse_of_canonical⟩

/-- A path that is an operand has a kind, and the minus sign is not part of the number. -/
theorem parse_negated_half :
    let e : Tree := .typed (.compare .less
      (.chain .sum [.path ⟨[.field "a"]⟩, .negate (.number 0.5)]) (.number 3))
    parse "(sum($.a, -(0.5)) < 3)" = .ok e ∧ Canonical e := by
  intro e
  have operands : ∀ operand ∈ [.path ⟨[.field "a"]⟩, .negate (.number (0.5 : Float))],
      Canonical operand := by
    intro operand isOperand
    rcases List.mem_cons.1 isOperand with rfl | isLast
    · exact .path _
    · rw [List.mem_singleton.1 isLast]
      exact .negate (.number (by decide +kernel))
  have canonical : Canonical e :=
    .typed rfl (.compare .less (.chain .sum (List.cons_ne_nil _ _) operands)
      (.number (by decide +kernel)))
  have spelled : e.text = "(sum($.a, -(0.5)) < 3)" := by decide +kernel
  have read := parse_canonical_and_parse_text.2 e canonical
  rw [spelled] at read
  exact ⟨read, parse_canonical_and_parse_text.1 _ e read⟩

end Expr

end PathExpr
