import PathExpr.Proofs.RoundTrip.Canonical
import PathExpr.Proofs.RoundTrip.Scan

set_option autoImplicit false

namespace PathExpr

namespace Piece

theorem tokensOf_append (first second : List Piece) :
    tokensOf (first ++ second) = tokensOf first ++ tokensOf second := List.filterMap_append

theorem tokensOf_parens (inside : List Piece) :
    tokensOf (parens inside) = .leftParen :: (tokensOf inside ++ [.rightParen]) := by
  show .leftParen :: tokensOf (inside ++ [token .rightParen]) = _
  rw [tokensOf_append]
  rfl

theorem tokensOf_binary (operator : Token) (left right : List Piece) :
    tokensOf (binary operator left right) =
      .leftParen :: (tokensOf left ++ operator :: tokensOf right ++ [.rightParen]) := by
  unfold binary
  rw [tokensOf_parens, tokensOf_append, tokensOf_append, List.append_assoc, List.append_assoc]
  show .leftParen :: (tokensOf left ++ (operator :: tokensOf right ++ [.rightParen])) = _
  rw [← List.append_assoc]

theorem tokensOf_intercalate (separator : List Piece) (parts : List (List Piece)) :
    tokensOf (separator.intercalate parts) =
      (tokensOf separator).intercalate (parts.map tokensOf) := by
  induction parts with
  | nil => rfl
  | cons first rest ih =>
      cases rest with
      | nil => rw [List.intercalate_singleton, List.map_cons, List.map_nil,
          List.intercalate_singleton]
      | cons second others =>
          rw [List.intercalate_cons_cons, tokensOf_append, tokensOf_append, ih]
          simp only [List.map_cons, List.intercalate_cons_cons]

end Piece

namespace Expr

open Piece (tokensOf)

/-- A tree as it is read where its kind does not show. -/
def untyped : {k : Option Kind} → Expr Float k → Tree
  | none, e => e
  | some _, .path p => .path p
  | some _, .withDefault p d => .withDefault p (untyped d)
  | some _, e => .typed e

theorem untyped_none (e : Tree) : untyped e = e := by
  rw [untyped]

theorem untyped_path {k : Option Kind} (p : Path) : untyped (.path p : Expr Float k) = .path p := by
  cases k with
  | none => exact untyped_none _
  | some k => rw [untyped]

theorem untyped_withDefault {k : Option Kind} (p : Path) (d : Expr Float k) :
    untyped (.withDefault p d) = .withDefault p (untyped d) := by
  cases k with
  | none => rw [untyped_none, untyped_none]
  | some k => rw [untyped]

theorem untyped_of_isLookup {k : Kind} {e : Expr Float (some k)} (noLookup : e.isLookup = false) :
    untyped e = .typed e := by
  cases e <;> first | rfl | cases noLookup

theorem serves_untyped {k : Kind} : (e : Expr Float (some k)) → Serves k (untyped e) e
  | .path p => .path p
  | .withDefault p d => .withDefault p (serves_untyped d)
  | .number x => .typed (.number x)
  | .negate e => .typed (.negate e)
  | .chain op operands => .typed (.chain op operands)
  | .subtract l r => .typed (.subtract l r)
  | .divide l r => .typed (.divide l r)
  | .length a => .typed (.length a)
  | .boolean b => .typed (.boolean b)
  | .not e => .typed (.not e)
  | .compare op l r => .typed (.compare op l r)
  | .equal l r => .typed (.equal l r)
  | .logic op operands => .typed (.logic op operands)
  | .string s => .typed (.string s)

theorem numberPieces_of_isFinite {x : Float} (finite : x.isFinite = true) :
    numberPieces x = [.token (.number x)] := by
  unfold numberPieces
  rw [Double.isNaN_of_isFinite finite, Double.isInf_of_isFinite finite,
    if_neg Bool.false_ne_true, if_neg Bool.false_ne_true]

def part {k : Kind} (e : Expr Float (some k)) : Part k where
  tokens := e.tokens
  tree := untyped e
  operand := e
  serves := serves_untyped e

/-- A phrase that binds tightly is one of every looser level. -/
theorem Derives.loosen {level : Level} {tokens : List Token} {e : Tree}
    (phrase : Derives .unary tokens e) (loose : level ≠ .primary) : Derives level tokens e := by
  have product : Derives .product tokens e := .tighter rfl phrase
  have sum : Derives .sum tokens e := .tighter rfl product
  have comparison : Derives .comparison tokens e := .tighter rfl sum
  have equality : Derives .equality tokens e := .tighter rfl comparison
  have and : Derives .and tokens e := .tighter rfl equality
  cases level with
  | or => exact .tighter rfl and
  | and => exact and
  | equality => exact equality
  | comparison => exact comparison
  | sum => exact sum
  | product => exact product
  | unary => exact phrase
  | primary => exact absurd rfl loose

/-- A phrase of any level binds tightly between parentheses. -/
theorem Derives.parenthesized {level : Level} {tokens : List Token} {e : Tree}
    (phrase : Derives level tokens e) :
    Derives .unary (.leftParen :: (tokens ++ [.rightParen])) e :=
  .tighter rfl (.parens phrase.whole)

theorem Derives.binary {level : Level} {operator : Token} {left right : List Piece} {e : Tree}
    (phrase : Derives level (tokensOf left ++ operator :: tokensOf right) e) :
    Derives .unary (tokensOf (Piece.binary operator left right)) e := by
  rw [Piece.tokensOf_binary]
  exact phrase.parenthesized

/-- The inverse operators: one further operand, which goes against what stands before it. -/
theorem derives_inverse {op : Associative} {operator : Token} {l r : Expr Float (some .number)}
    (isWritten : Written op .against r.tokens (operator :: r.tokens))
    (left : Derives .unary l.tokens (untyped l)) (right : Derives .unary r.tokens (untyped r)) :
    Derives .unary (tokensOf (Piece.binary operator l.pieces r.pieces))
      (.typed (inverse op l r)) := by
  have tight : Level.belowAssociative op ≠ .primary := by cases op <;> decide
  have phrase := @Derives.chain op (part l) [⟨.against, part r, _, isWritten⟩]
    (List.cons_ne_nil _ _) (left.loosen tight) (by
      intro next isNext
      rw [List.mem_singleton.1 isNext]
      exact right.loosen tight)
  rw [List.flatMap_cons, List.flatMap_nil, List.append_nil] at phrase
  exact phrase.binary

/-- An operand of a logical operator behind the first one, with the operator as a symbol. -/
def furtherPart (e : Expr Float (some .boolean)) : Spelling × Part .boolean := (.symbol, part e)

theorem intercalate_tokens (op : Logical) (first : Expr Float (some .boolean))
    (rest : List (Expr Float (some .boolean))) :
    [Token.logical op .symbol].intercalate ((first :: rest).map tokens) =
      first.tokens ++
        (rest.map furtherPart).flatMap fun next => .logical op next.1 :: next.2.tokens := by
  induction rest generalizing first with
  | nil => exact List.intercalate_singleton.trans (List.append_nil _).symm
  | cons second others ih =>
      rw [List.map_cons, List.map_cons, List.intercalate_cons_cons, ← List.map_cons, ih,
        List.map_cons, List.flatMap_cons, List.append_assoc]
      rfl

theorem derives_logic {op : Logical} {operands : List (Expr Float (some .boolean))}
    (several : 2 ≤ operands.length)
    (phrases : ∀ e ∈ operands, Derives .unary e.tokens (untyped e)) :
    Derives .unary (tokensOf (logicPieces op (operands.map pieces)))
      (.typed (.logic op operands)) := by
  have tight : Level.belowLogical op ≠ .primary := by cases op <;> decide
  match operands, several, phrases with
  | first :: second :: others, _, phrases =>
      have phrase := @Derives.logic op (part first) ((second :: others).map furtherPart)
        (List.cons_ne_nil _ _) ((phrases first List.mem_cons_self).loosen tight) (by
          intro next isNext
          obtain ⟨e, inOthers, rfl⟩ := List.mem_map.1 isNext
          exact (phrases e (List.mem_cons_of_mem first inOthers)).loosen tight)
      have operands : ((second :: others).map furtherPart).map (fun next => next.2.operand) =
          second :: others := by
        rw [List.map_map]
        exact List.map_id _
      have written : tokensOf (logicPieces op ((first :: second :: others).map pieces)) =
          .leftParen ::
            ([Token.logical op .symbol].intercalate ((first :: second :: others).map tokens) ++
              [.rightParen]) := by
        show tokensOf (Piece.parens ((Piece.spaced (.logical op .symbol)).intercalate
          ((first :: second :: others).map pieces))) = _
        rw [Piece.tokensOf_parens, Piece.tokensOf_intercalate, List.map_map]
        rfl
      rw [operands] at phrase
      rw [written, intercalate_tokens]
      exact phrase.parenthesized

/-- The tokens of a canonical tree are a phrase that binds tightly. -/
theorem Canonical.derives {k : Option Kind} {e : Expr Float k} (canonical : Canonical e) :
    Derives .unary e.tokens (untyped e) := by
  induction canonical with
  | path p =>
      rw [untyped_path]
      exact .tighter rfl (.path p)
  | @withDefault k p d _ ih =>
      have phrase : Derives .primary (.path p :: .otherwise :: d.tokens)
          (.withDefault p (untyped d)) := .withDefault p ih
      rw [untyped_withDefault, tokens, pieces]
      exact @Derives.binary _ _ [.token (.path p)] d.pieces _ phrase
  | typed noLookup _ ih =>
      rw [untyped_of_isLookup noLookup] at ih
      rw [untyped_none, tokens, pieces]
      exact ih
  | @number x finite =>
      rw [untyped_of_isLookup rfl, tokens, pieces, numberPieces_of_isFinite finite]
      exact .tighter rfl (.number x)
  | @negate e _ ih =>
      have phrase := @Derives.negate ⟨_, _, _, serves_untyped e⟩ ih.parenthesized
      rw [untyped_of_isLookup rfl, tokens, pieces]
      show Derives .unary (.minus :: tokensOf (Piece.parens e.pieces)) _
      rw [Piece.tokensOf_parens]
      exact phrase
  | @chain op operands several _ ih =>
      have phrase := @Derives.fold op (operands.map part) (fun none =>
        several (List.map_eq_nil_iff.1 none)) (by
          intro arg isArg
          obtain ⟨e, inOperands, rfl⟩ := List.mem_map.1 isArg
          exact (ih e inOperands).loosen (by decide))
      have operands' : (operands.map part).map Part.operand = operands := by
        rw [List.map_map]
        exact List.map_id _
      rw [operands', List.map_map] at phrase
      rw [untyped_of_isLookup rfl, tokens, pieces, numbersPieces_eq]
      show Derives .unary (.function (.fold op) :: tokensOf (Piece.parens _)) _
      rw [Piece.tokensOf_parens, Piece.tokensOf_intercalate, List.map_map]
      exact .tighter rfl phrase
  | @subtract l r _ _ ihLeft ihRight =>
      rw [untyped_of_isLookup rfl, tokens, pieces]
      exact derives_inverse (.minus _) ihLeft ihRight
  | @divide l r _ _ ihLeft ihRight =>
      rw [untyped_of_isLookup rfl, tokens, pieces]
      exact derives_inverse (.slash _) ihLeft ihRight
  | @length a _ ih =>
      have phrase := @Derives.length (part a) (ih.loosen (by decide))
      rw [untyped_of_isLookup rfl, tokens, pieces]
      show Derives .unary (.function .length :: tokensOf (Piece.parens a.pieces)) _
      rw [Piece.tokensOf_parens]
      exact .tighter rfl phrase
  | boolean b =>
      rw [untyped_of_isLookup rfl]
      exact .tighter rfl (.boolean b)
  | @not e _ ih =>
      have phrase := @Derives.not ⟨_, _, _, serves_untyped e⟩ ih.parenthesized
      rw [untyped_of_isLookup rfl, tokens, pieces]
      show Derives .unary (.not :: tokensOf (Piece.parens e.pieces)) _
      rw [Piece.tokensOf_parens]
      exact phrase
  | @compare op l r _ _ ihLeft ihRight =>
      have phrase := @Derives.compare op (part l) (part r) (ihLeft.loosen (by decide))
        (ihRight.loosen (by decide))
      rw [untyped_of_isLookup rfl, tokens, pieces]
      exact phrase.binary
  | @equal l r _ _ ihLeft ihRight =>
      rw [untyped_none] at ihLeft ihRight
      have phrase := Derives.equal (ihLeft.loosen (by decide)) (ihRight.loosen (by decide))
      rw [untyped_of_isLookup rfl, tokens, pieces]
      exact phrase.binary
  | @logic op operands several _ ih =>
      rw [untyped_of_isLookup rfl, tokens, pieces, booleansPieces_eq]
      exact derives_logic several ih
  | string s =>
      rw [untyped_of_isLookup rfl]
      exact .tighter rfl (.string s)

end Expr

end PathExpr
