import PathExpr.Proofs.Grammar.Local

set_option autoImplicit false

namespace PathExpr

namespace Cursor

variable {α β : Type}

def map (f : α → β) (c : Cursor α) : Cursor β := ⟨c.rest.map f, c.position⟩

@[simp] theorem length_rest_map (f : α → β) (c : Cursor α) :
    (c.map f).rest.length = c.rest.length := List.length_map f

@[simp] theorem peek?_map (f : α → β) (c : Cursor α) : (c.map f).peek? = c.peek?.map f :=
  List.head?_map

@[simp] theorem advance_map (f : α → β) (c : Cursor α) :
    (c.map f).advance = c.advance.map f := by
  obtain ⟨rest, position⟩ := c
  cases rest <;> rfl

end Cursor

namespace Token

/-- The token, and if it is a logical operator its symbol. -/
def symbolic : Token → Token
  | logical op _ => logical op .symbol
  | t => t

/-- Whether the token that comes next is one that is no logical operator can be told after
respelling. -/
theorem map_symbolic_eq_some_iff (next : Option Token) {t : Token}
    (noOperator : ∀ op, Expr.isLogical op (some t) = false) :
    next.map symbolic = some t ↔ next = some t := by
  cases next with
  | none => exact Iff.rfl
  | some found =>
      cases found with
      | logical op spelling =>
          have differs (spelling : Spelling) : some (logical op spelling) ≠ some t := by
            intro same
            have isLogical := noOperator op
            rw [← same] at isLogical
            exact ne_of_beq_false isLogical rfl
          exact iff_of_false (differs .symbol) (differs spelling)
      | _ => exact Iff.rfl

end Token

namespace Expr

def Fault.symbolic : Fault → Fault
  | unexpectedToken found position => unexpectedToken found.symbolic position
  | expectedToken expected found position => expectedToken expected found.symbolic position
  | fault => fault

theorem Fault.symbolic_eq_self {fault : Fault} (isSilent : fault.syntaxPosition? = none) :
    fault.symbolic = fault := by
  cases fault with
  | unexpectedToken | expectedToken => cases isSilent
  | unexpectedEnd | kindMismatch | argumentCount => rfl

section

variable {α β γ : Type}

/-- What is to come of respelled tokens. -/
def respelled : Except Fault (Parsed α) → Except Fault (Parsed α)
  | .ok (a, after) => .ok (a, after.map Token.symbolic)
  | .error fault => .error fault.symbolic

/-- The reader gives the same for respelled tokens, as it asks of a logical operator which one it is
and not how it is written. -/
def Respells (read : Cursor Token → Except Fault (Parsed α)) : Prop :=
  ∀ c, read (c.map Token.symbolic) = respelled (read c)

/-- The second step goes on behind what the first one gives for the respelled tokens. -/
theorem respelled_bind {result other : Except Fault (Parsed α)}
    {next next' : Parsed α → Except Fault (Parsed β)} (same : other = respelled result)
    (onward : ∀ a c, next' (a, c.map Token.symbolic) = respelled (next (a, c))) :
    other >>= next' = respelled (result >>= next) := by
  subst same
  cases result with
  | ok read => exact onward read.1 read.2
  | error fault => rfl

/-- Faults of what is no reader name no token that could be respelled. -/
theorem respelled_bind_silent {value : Except Fault γ}
    {next next' : γ → Except Fault (Parsed β)}
    (isSilent : ∀ fault, value = .error fault → fault.syntaxPosition? = none)
    (onward : ∀ a, next' a = respelled (next a)) :
    value >>= next' = respelled (value >>= next) := by
  cases value with
  | ok a => exact onward a
  | error fault =>
      show Except.error fault = Except.error fault.symbolic
      rw [Fault.symbolic_eq_self (isSilent fault rfl)]

end

theorem isFactorSign_symbolic (next : Option Token) :
    isFactorSign (next.map Token.symbolic) = isFactorSign next := by
  cases next with
  | none => rfl
  | some t => cases t <;> rfl

theorem termSign?_symbolic (next : Option Token) :
    (next.map Token.symbolic).bind termSign? = next.bind termSign? := by
  cases next with
  | none => rfl
  | some t => cases t <;> rfl

theorem comparison?_symbolic (next : Option Token) :
    (next.map Token.symbolic).bind comparison? = next.bind comparison? := by
  cases next with
  | none => rfl
  | some t => cases t <;> rfl

theorem isLogical_symbolic (op : Logical) (next : Option Token) :
    isLogical op (next.map Token.symbolic) = isLogical op next := by
  cases next with
  | none => rfl
  | some t => cases t <;> rfl

section

variable {unary : Parser} (respells : Respells unary)

include respells

theorem factors_respells (bound : Nat) (run : List (Expr Float (some .number))) :
    Respells (factors unary bound run) := by
  induction bound generalizing run with
  | zero => exact fun c => rfl
  | succ bound ih =>
      intro c
      rw [factors, factors, Cursor.peek?_map, isFactorSign_symbolic, Cursor.advance_map]
      split
      · refine respelled_bind (respells c.advance) fun e after => ?_
        refine respelled_bind_silent operand_silent fun right => ?_
        have isStar : c.peek?.map Token.symbolic = some .star ↔ c.peek? = some .star :=
          Token.map_symbolic_eq_some_iff _ fun _ => rfl
        simp only [isStar]
        exact ih _ after
      · rfl

theorem factorsAfter_respells (start : Nat) (first : Tree) :
    Respells (factorsAfter unary start first) := by
  intro c
  unfold factorsAfter
  rw [Cursor.peek?_map, isFactorSign_symbolic, Cursor.length_rest_map]
  split
  · refine respelled_bind_silent operand_silent fun left => ?_
    exact respelled_bind (factors_respells respells _ _ c) fun e after => rfl
  · rfl

theorem multiplicative_respells : Respells (multiplicative unary) := by
  intro c
  refine respelled_bind (respells c) fun first after => ?_
  exact factorsAfter_respells respells c.position first after

theorem term_respells (sign : TermSign) : Respells (term unary sign) := by
  intro c
  cases sign with
  | minusNumber x =>
      unfold term
      rw [Cursor.advance_map]
      refine respelled_bind (factorsAfter_respells respells _ _ c.advance) fun e after => ?_
      exact respelled_bind_silent operand_silent fun right => rfl
  | plus | minus =>
      unfold term
      rw [Cursor.advance_map]
      refine respelled_bind (multiplicative_respells respells c.advance) fun e after => ?_
      exact respelled_bind_silent operand_silent fun right => rfl

theorem terms_respells (bound : Nat) (run : List (Expr Float (some .number))) :
    Respells (terms unary bound run) := by
  induction bound generalizing run with
  | zero => exact fun c => rfl
  | succ bound ih =>
      intro c
      rw [terms, terms, Cursor.peek?_map, termSign?_symbolic]
      cases c.peek?.bind termSign? with
      | none => rfl
      | some sign =>
          exact respelled_bind (term_respells respells sign c) fun right after => ih _ after

theorem additive_respells : Respells (additive unary) := by
  intro c
  refine respelled_bind (multiplicative_respells respells c) fun first after => ?_
  dsimp only
  rw [Cursor.peek?_map, termSign?_symbolic, Cursor.length_rest_map]
  split
  · rfl
  · refine respelled_bind_silent operand_silent fun left => ?_
    exact respelled_bind (terms_respells respells _ _ after) fun e final => rfl

theorem relational_respells : Respells (relational unary) := by
  intro c
  refine respelled_bind (additive_respells respells c) fun left after => ?_
  dsimp only
  rw [Cursor.peek?_map, comparison?_symbolic, Cursor.advance_map]
  split
  · rfl
  · refine respelled_bind_silent operand_silent fun l => ?_
    refine respelled_bind (additive_respells respells after.advance) fun right final => ?_
    exact respelled_bind_silent operand_silent fun r => rfl

theorem equality_respells : Respells (equality unary) := by
  intro c
  refine respelled_bind (relational_respells respells c) fun left after => ?_
  have isEqual : after.peek?.map Token.symbolic = some .equal ↔ after.peek? = some .equal :=
    Token.map_symbolic_eq_some_iff _ fun _ => rfl
  simp only [Cursor.peek?_map, isEqual, Cursor.advance_map]
  split
  · exact respelled_bind (relational_respells respells after.advance) fun right final => rfl
  · rfl

end

section

variable {op : Logical} {part : Parser} (respells : Respells part)

include respells

theorem moreOperands_respells (bound : Nat) : Respells (moreOperands op part bound) := by
  induction bound with
  | zero => exact fun c => rfl
  | succ bound ih =>
      intro c
      rw [moreOperands, moreOperands, Cursor.peek?_map, isLogical_symbolic, Cursor.advance_map]
      split
      · refine respelled_bind (respells c.advance) fun e after => ?_
        refine respelled_bind_silent operand_silent fun e => ?_
        exact respelled_bind (ih after) fun rest final => rfl
      · rfl

theorem junction_respells : Respells (junction op part) := by
  intro c
  refine respelled_bind (respells c) fun first after => ?_
  dsimp only
  rw [Cursor.peek?_map, isLogical_symbolic, Cursor.length_rest_map]
  split
  · refine respelled_bind_silent operand_silent fun left => ?_
    exact respelled_bind (moreOperands_respells respells _ after) fun rest final => rfl
  · rfl

end

theorem expression_respells {unary : Parser} (respells : Respells unary) :
    Respells (expression unary) :=
  junction_respells (junction_respells (equality_respells respells))

theorem expect_respells {α : Type} (expected : Token) (wanted : Wanted)
    (noOperator : ∀ op, isLogical op (some expected) = false)
    {next : Cursor Token → Except Fault (Parsed α)} (onward : Respells next) (c : Cursor Token) :
    expect expected wanted (c.map Token.symbolic) >>= next =
      respelled (expect expected wanted c >>= next) := by
  unfold expect
  rw [Cursor.peek?_map, Cursor.advance_map]
  cases isNext : c.peek? with
  | none => rfl
  | some found =>
      -- `expected` is not respelled, and yet the same tokens are taken for it
      have sameNext := Token.map_symbolic_eq_some_iff (some found) noOperator
      rw [Option.map_some, Option.some.injEq, Option.some.injEq] at sameNext
      simp only [Option.map_some, sameNext]
      split
      · exact onward c.advance
      · rfl

section

variable {whole : Parser} (respells : Respells whole)

include respells

theorem moreArguments_respells (bound : Nat) : Respells (moreArguments whole bound) := by
  induction bound with
  | zero => exact fun c => rfl
  | succ bound ih =>
      intro c
      rw [moreArguments, moreArguments]
      refine respelled_bind (respells c) fun e after => ?_
      dsimp only
      rw [Cursor.peek?_map, Cursor.advance_map]
      cases after.peek? with
      | none => rfl
      | some found =>
          cases found with
          | comma => exact respelled_bind (ih after.advance) fun rest final => rfl
          | _ => rfl

theorem arguments_respells : Respells (arguments whole) := by
  intro c
  unfold arguments
  refine expect_respells .leftParen _ (fun _ => rfl) (fun inside => ?_) c
  have isClosing : inside.peek?.map Token.symbolic = some .rightParen ↔
      inside.peek? = some .rightParen := Token.map_symbolic_eq_some_iff _ fun _ => rfl
  simp only [Cursor.peek?_map, isClosing, Cursor.advance_map, Cursor.length_rest_map]
  split
  · rfl
  · exact moreArguments_respells respells _ inside

end

theorem unary_respells (bound : Nat) : Respells (unary bound) := by
  induction bound with
  | zero => exact fun c => rfl
  | succ bound ih =>
      intro c
      unfold unary
      rw [Cursor.peek?_map, Cursor.advance_map]
      cases c.peek? with
      | none => rfl
      | some token =>
          cases token with
          | minus | not =>
              refine respelled_bind (ih c.advance) fun e after => ?_
              exact respelled_bind_silent operand_silent fun e => rfl
          | path p =>
              -- whether a default follows is asked of the second token
              have isOtherwise : c.advance.peek?.map Token.symbolic = some .otherwise ↔
                  c.advance.peek? = some .otherwise := Token.map_symbolic_eq_some_iff _ fun _ => rfl
              simp only [Option.map_some, Token.symbolic, Cursor.peek?_map, isOtherwise,
                Cursor.advance_map]
              split
              · exact respelled_bind (ih c.advance.advance) fun d after => rfl
              · rfl
          | leftParen =>
              refine respelled_bind (expression_respells ih c.advance) fun e after => ?_
              exact expect_respells .rightParen _ (fun _ => rfl) (fun final => rfl) after
          | function f =>
              refine respelled_bind (arguments_respells (expression_respells ih) c.advance)
                fun args after => ?_
              exact respelled_bind_silent call_silent fun e => rfl
          | _ => rfl

theorem ofTokens_symbolic (tokens : List Token) :
    ofTokens (tokens.map Token.symbolic) = (ofTokens tokens).mapError Fault.symbolic := by
  have read := expression_respells (unary_respells tokens.length) (Cursor.ofList tokens)
  have isMap : (Cursor.ofList tokens).map Token.symbolic =
      Cursor.ofList (tokens.map Token.symbolic) := rfl
  rw [isMap] at read
  unfold ofTokens
  rw [List.length_map, read]
  cases expression (unary tokens.length) (Cursor.ofList tokens) with
  | error fault => rfl
  | ok parsed =>
      obtain ⟨e, after⟩ := parsed
      simp only [respelled, bind, Except.bind, Cursor.peek?_map]
      cases after.peek? with
      | none => rfl
      | some found => rfl

/-- It does not matter whether logical operators are words or symbols: the same tokens are an
expression, and the same one, and otherwise the fault is the same but for the spelling of the token
that it found. -/
theorem ofTokens_respelled (tokens : List Token) :
    (∀ e, ofTokens (tokens.map Token.symbolic) = .ok e ↔ ofTokens tokens = .ok e) ∧
    ∀ fault, ofTokens tokens = .error fault →
      ofTokens (tokens.map Token.symbolic) = .error fault.symbolic := by
  rw [ofTokens_symbolic]
  refine ⟨fun e => mapError_eq_ok, fun fault failed => ?_⟩
  rw [failed]
  rfl

/-- A word between operands, and another one where an operand is due. -/
theorem ofTokens_respelled_words :
    let tokens : List Token := [.boolean true, .logical .and .word, .boolean false,
      .logical .or .symbol, .leftParen, .logical .and .word]
    let symbols : List Token := [.boolean true, .logical .and .symbol, .boolean false,
      .logical .or .symbol, .leftParen, .logical .and .symbol]
    ofTokens tokens = .error (.unexpectedToken (.logical .and .word) 5) ∧
      ofTokens symbols = .error (.unexpectedToken (.logical .and .symbol) 5) := by
  intro tokens symbols
  have failed : ofTokens tokens = .error (.unexpectedToken (.logical .and .word) 5) := rfl
  exact ⟨failed, (ofTokens_respelled tokens).2 _ failed⟩

end Expr

end PathExpr
