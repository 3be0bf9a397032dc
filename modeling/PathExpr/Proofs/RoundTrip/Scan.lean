import PathExpr.Expr.Text
import PathExpr.Proofs.Induction
import PathExpr.Proofs.Lexical.Printed

set_option autoImplicit false

namespace PathExpr

namespace Piece

open Token (Bounded bounded_cons scanAll scanAll_of_spells)

def chars (ps : List Piece) : List Char := ps.flatMap fun p => p.text.toList

def tokensOf (ps : List Piece) : List Token := ps.filterMap token?

/-- In front of something that bounds them, pieces are read as their tokens. -/
def ReadsBack (ps : List Piece) : Prop :=
  ∀ (rest : List Char) (tokens : List Token), Bounded rest →
    (∀ position, scanAll ⟨rest, position⟩ = .ok tokens) →
    ∀ position, scanAll ⟨chars ps ++ rest, position⟩ = .ok (tokensOf ps ++ tokens)

theorem readsBack_nil : ReadsBack [] := fun _ _ _ further => further

theorem ReadsBack.append {ps qs : List Piece} (first : ReadsBack ps) (second : ReadsBack qs)
    (bounds : ∀ rest, Bounded rest → Bounded (chars qs ++ rest)) : ReadsBack (ps ++ qs) := by
  intro rest tokens bounded further position
  have behind := second rest tokens bounded further
  have whole := first (chars qs ++ rest) (tokensOf qs ++ tokens) (bounds rest bounded) behind
    position
  unfold chars tokensOf at whole ⊢
  rw [List.flatMap_append, List.filterMap_append, List.append_assoc, List.append_assoc]
  exact whole

theorem readsBack_token {t : Token} (readable : t.isReadable = true) : ReadsBack [token t] := by
  intro rest tokens bounded further position
  have spells := Token.spells_text readable bounded
  have whole := scanAll_of_spells spells further position
  unfold chars tokensOf
  rw [List.flatMap_cons, List.flatMap_nil, List.append_nil]
  exact whole

theorem ReadsBack.blank {ps : List Piece} (behind : ReadsBack ps) : ReadsBack (blank :: ps) := by
  intro rest tokens bounded further position
  have isBlank : ∀ c ∈ [' '], Text.isBlank c = true := List.forall_mem_singleton.2 (by decide)
  show scanAll ⟨[' '] ++ (chars ps ++ rest), position⟩ = _
  rw [Token.scanAll_blanks isBlank]
  exact behind rest tokens bounded further _

/-- Whatever stands behind an opening parenthesis, it is no part of it. -/
theorem ReadsBack.leftParen {ps : List Piece} (inside : ReadsBack ps) :
    ReadsBack (token .leftParen :: ps) := by
  intro rest tokens bounded further position
  have spells : Token.Spells ['('] .leftParen (chars ps ++ rest) :=
    Token.spells_alone rfl (by decide) (by decide) (.inl (by decide))
  exact scanAll_of_spells spells (inside rest tokens bounded further) position

theorem ReadsBack.parens {ps : List Piece} (inside : ReadsBack ps) : ReadsBack (parens ps) := by
  have closing : ReadsBack [token .rightParen] := readsBack_token rfl
  apply ReadsBack.leftParen
  apply inside.append closing
  intro rest _
  exact bounded_cons (by decide)

theorem ReadsBack.call {ps : List Piece} (inside : ReadsBack ps) {t : Token}
    (readable : t.isReadable = true) : ReadsBack (token t :: Piece.parens ps) := by
  apply (readsBack_token readable).append inside.parens
  intro rest _
  exact bounded_cons (by decide)

/-- What bounds the pieces before it and leaves alone those behind it. -/
structure Separates (separator : List Piece) : Prop where
  bounds (rest : List Char) : Bounded (chars separator ++ rest)
  readsBack {ps : List Piece} (behind : ReadsBack ps) : ReadsBack (separator ++ ps)

theorem separates_spaced {t : Token} (readable : t.isReadable = true) : Separates (spaced t) := by
  constructor
  · intro rest
    exact bounded_cons (by decide)
  · intro ps behind
    apply ReadsBack.blank
    apply (readsBack_token readable).append behind.blank
    intro rest _
    exact bounded_cons (by decide)

theorem separates_comma : Separates [token .comma, blank] := by
  constructor
  · intro rest
    exact bounded_cons (by decide)
  · intro ps behind
    have comma : ReadsBack [token .comma] := readsBack_token rfl
    apply comma.append behind.blank
    intro rest _
    exact bounded_cons (by decide)

theorem Separates.between {separator first second : List Piece} (separates : Separates separator)
    (before : ReadsBack first) (behind : ReadsBack second) :
    ReadsBack (first ++ (separator ++ second)) := by
  apply before.append (separates.readsBack behind)
  intro rest _
  unfold chars
  rw [List.flatMap_append, List.append_assoc]
  exact separates.bounds _

theorem Separates.intercalate {separator : List Piece} (separates : Separates separator)
    {parts : List (List Piece)} (readsBack : ∀ ps ∈ parts, ReadsBack ps) :
    ReadsBack (separator.intercalate parts) := by
  induction parts with
  | nil => exact readsBack_nil
  | cons first rest ih =>
      have before := readsBack first List.mem_cons_self
      cases rest with
      | nil =>
          rw [List.intercalate_singleton]
          exact before
      | cons second others =>
          rw [List.intercalate_cons_cons, List.append_assoc]
          exact separates.between before
            (ih fun ps inRest => readsBack ps (List.mem_cons_of_mem first inRest))

theorem ReadsBack.binary {left right : List Piece} (before : ReadsBack left)
    (behind : ReadsBack right) {t : Token} (readable : t.isReadable = true) :
    ReadsBack (binary t left right) := by
  apply ReadsBack.parens
  rw [List.append_assoc]
  exact (separates_spaced readable).between before behind

end Piece

namespace Expr

open Piece

theorem readsBack_numberPieces (x : Float) : ReadsBack (numberPieces x) := by
  have literal : ∀ y : Float, y.isFinite = true → ReadsBack [token (.number y)] := by
    intro y finite
    exact readsBack_token finite
  unfold numberPieces
  by_cases isNaN : x.isNaN = true
  · rw [if_pos isNaN]
    exact (literal 0 (by decide +kernel)).binary (literal 0 (by decide +kernel)) rfl
  · rw [if_neg isNaN]
    by_cases isInf : x.isInf = true
    · rw [if_pos isInf]
      apply ReadsBack.binary _ (literal 0 (by decide +kernel)) rfl
      split
      · exact literal (-1) (by decide +kernel)
      · exact literal 1 (by decide +kernel)
    · rw [if_neg isInf]
      rw [Bool.not_eq_true] at isNaN isInf
      exact literal x (Double.isFinite_of_ordinary isNaN isInf)

theorem readsBack_logicPieces (op : Logical) {operands : List (List Piece)}
    (readsBack : ∀ ps ∈ operands, ReadsBack ps) : ReadsBack (logicPieces op operands) := by
  have identity : ReadsBack [token (.boolean op.identity)] := readsBack_token rfl
  have operator : (Token.logical op .symbol).isReadable = true := rfl
  unfold logicPieces
  dsimp only
  split
  · exact identity
  · rename_i only
    exact (readsBack only List.mem_cons_self).binary identity operator
  · exact ((separates_spaced operator).intercalate readsBack).parens

theorem readsBack_pieces {k : Option Kind} (e : Expr Float k) : ReadsBack e.pieces := by
  induction e using induct with
  | path p =>
      rw [pieces]
      exact readsBack_token rfl
  | withDefault p d ih =>
      rw [pieces]
      have path : ReadsBack [token (.path p)] := readsBack_token rfl
      exact path.binary ih rfl
  | typed e ih =>
      rw [pieces]
      exact ih
  | number x =>
      rw [pieces]
      exact readsBack_numberPieces x
  | negate e ih =>
      rw [pieces]
      exact ih.call rfl
  | chain op operands ih =>
      rw [pieces, numbersPieces_eq]
      have arguments : ReadsBack ([token .comma, blank].intercalate (operands.map pieces)) := by
        apply separates_comma.intercalate
        intro ps inParts
        obtain ⟨e, inOperands, rfl⟩ := List.mem_map.1 inParts
        exact ih e inOperands
      exact arguments.call rfl
  | subtract l r ihLeft ihRight =>
      rw [pieces]
      exact ihLeft.binary ihRight rfl
  | divide l r ihLeft ihRight =>
      rw [pieces]
      exact ihLeft.binary ihRight rfl
  | length a ih =>
      rw [pieces]
      exact ih.call rfl
  | boolean b =>
      rw [pieces]
      exact readsBack_token rfl
  | not e ih =>
      rw [pieces]
      exact ih.call rfl
  | compare op l r ihLeft ihRight =>
      rw [pieces]
      exact ihLeft.binary ihRight rfl
  | equal l r ihLeft ihRight =>
      rw [pieces]
      exact ihLeft.binary ihRight rfl
  | logic op operands ih =>
      rw [pieces, booleansPieces_eq]
      apply readsBack_logicPieces
      intro ps inParts
      obtain ⟨e, inOperands, rfl⟩ := List.mem_map.1 inParts
      exact ih e inOperands
  | string s =>
      rw [pieces]
      exact readsBack_token rfl

/-- The tokens of the written form are those that are read from it, whatever the expression. -/
theorem scan_text {k : Option Kind} (e : Expr Float k) : Token.scan e.text = .ok e.tokens := by
  have nothing : ∀ position, Token.scanAll ⟨[], position⟩ = .ok [] := fun _ => rfl
  have whole := readsBack_pieces e [] [] Token.bounded_nil nothing 0
  have characters : e.text.toList = chars e.pieces := by
    unfold text chars
    rw [String.toList_join, List.flatMap_map]
  rw [List.append_nil, List.append_nil] at whole
  unfold Token.scan Cursor.ofList
  rw [characters]
  exact whole

end Expr

end PathExpr
