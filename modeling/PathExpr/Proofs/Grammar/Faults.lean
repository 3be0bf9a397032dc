import PathExpr.Proofs.Grammar.Due

set_option autoImplicit false

namespace PathExpr.Expr

def isWrongCount : Function → Nat → Bool
  | .fold _, count => count == 0
  | .length, count => count != 1

/-- What a fault says of the tokens. -/
def Fault.PointsAt (tokens : List Token) : Fault → Prop
  | unexpectedToken found position => tokens[position]? = some found
  | expectedToken expected found position => tokens[position]? = some found ∧ expected ≠ found
  | unexpectedEnd _ => True
  | kindMismatch expected found position =>
      position < tokens.length ∧ expected ≠ found ∧
        ∃ e, OperandAt tokens expected position e ∧ HasKind found e
  | argumentCount function found position =>
      isWrongCount function found = true ∧
        ∃ (before behind : List Token) (k : Option Kind) (phrases : List (List Token)),
          tokens = before ++ .function function :: .leftParen ::
            ([Token.comma].intercalate phrases ++ .rightParen :: behind) ∧
          before.length = position ∧ Due before .primary k ∧
          (∀ phrase ∈ phrases, ∃ e, Derives .or phrase e) ∧ phrases.length = found

/-- The cursor is behind the first tokens, and the bound suffices for the others. -/
structure Here (tokens : List Token) (bound : Nat) (before : List Token) (c : Cursor Token) :
    Prop where
  reads : Cursor.Reads before (Cursor.ofList tokens) c
  enough : c.rest.length ≤ bound

section

variable {tokens before run : List Token} {bound : Nat} {c after : Cursor Token}

namespace Here

theorem append (here : Here tokens bound before c) (reads : Cursor.Reads run c after) :
    Here tokens bound (before ++ run) after where
  reads := here.reads.append reads
  enough := Nat.le_trans (Cursor.Reaches.length_le ⟨run, reads⟩) here.enough

theorem advance (here : Here tokens bound before c) {token : Token}
    (isNext : c.peek? = some token) : Here tokens bound (before ++ [token]) c.advance :=
  here.append (Cursor.reads_advance_of_peek? isNext)

theorem inside {token : Token} (here : Here tokens (bound + 1) before c)
    (isNext : c.peek? = some token) : Here tokens bound (before ++ [token]) c.advance := by
  refine ⟨(here.advance isNext).reads, ?_⟩
  obtain ⟨rest, isCons⟩ := Cursor.peek?_eq_some isNext
  have shorter := Cursor.advance_length_lt isCons
  have enough := here.enough
  omega

theorem getElem?_position (here : Here tokens bound before c) :
    tokens[c.position]? = c.peek? :=
  Cursor.Reaches.getElem?_position ⟨before, here.reads⟩

theorem length_eq (here : Here tokens bound before c) : before.length = c.position := by
  rw [here.reads.2]
  exact (Nat.zero_add _).symm

theorem tokens_eq (here : Here tokens bound before c) : tokens = before ++ c.rest := here.reads.1

theorem operandAt {level : Level} {k : Kind} {e : Tree} (here : Here tokens bound before c)
    (reads : Cursor.Reads run c after) (isPhrase : Derives level run e)
    (longest : Longest level run after.rest) (asked : Asked before level k after.rest) :
    OperandAt tokens k c.position e := by
  refine ⟨before, run, after.rest, level, ?_, here.length_eq, isPhrase, longest, asked⟩
  rw [List.append_assoc, ← reads.1]
  exact here.tokens_eq

end Here

theorem OperandAt.pointsAt {k : Kind} {start : Nat} {e : Tree} {fault : Fault}
    (operandAt : OperandAt tokens k start e) (failed : operand k start e = .error fault) :
    fault.PointsAt tokens := by
  unfold operand at failed
  cases narrowed : e.narrow k with
  | ok e' =>
      rw [narrowed] at failed
      cases failed
  | error found =>
      rw [narrowed] at failed
      cases failed
      obtain ⟨hasKind, differ⟩ := hasKind_of_narrow narrowed
      exact ⟨operandAt.position_lt, differ, e, operandAt, hasKind⟩

/-- The operand is narrowed last. -/
theorem OperandAt.pointsAt_last {k : Kind} {start : Nat} {e : Tree} {fault : Fault} {α : Type}
    {result : Expr Float (some k) → α} (operandAt : OperandAt tokens k start e)
    (failed : (do return result (← operand k start e)) = .error fault) : fault.PointsAt tokens := by
  obtain failed | ⟨_, _, failed⟩ := bind_eq_error.1 failed
  · exact operandAt.pointsAt failed
  · cases failed

end

/-- The reader of a level points at its faults, where a phrase of the level is due. -/
def Reports (tokens : List Token) (bound : Nat) (level : Level) : Prop :=
  ∀ ⦃before : List Token⦄ ⦃k : Option Kind⦄ ⦃c : Cursor Token⦄ ⦃fault : Fault⦄,
    Due before level k → Here tokens bound before c →
      reader (unary bound) level c = .error fault → fault.PointsAt tokens

theorem reader_sound {unary : Parser} (sound : Sound .unary unary) {level : Level}
    (isReader : level ≠ .primary) : Sound level (reader unary level) := by
  cases level with
  | or => exact expression_sound sound
  | and => exact @junction_sound .and _ (equality_sound sound)
  | equality => exact equality_sound sound
  | comparison => exact relational_sound sound
  | sum => exact additive_sound sound
  | product => exact multiplicative_sound sound
  | unary => exact sound
  | primary => exact absurd rfl isReader

section

variable {tokens before : List Token} {bound : Nat} {c : Cursor Token} {fault : Fault}

/-- A reader takes the longest phrase of its level. -/
theorem Here.taken (level : Level) {after : Cursor Token} {e : Tree}
    (here : Here tokens bound before c) (isReader : level ≠ .primary)
    (read : reader (unary bound) level c = .ok (e, after)) :
    ∃ run, Cursor.Reads run c after ∧ Derives level run e ∧ Longest level run after.rest := by
  obtain ⟨run, reads, isPhrase⟩ := reader_sound (unary_sound bound) isReader read
  exact ⟨run, reads, isPhrase, longest_of_read here.reads here.enough reads read⟩

/-- An operand is read where one of a kind is asked for, and reading goes on behind it. -/
theorem due_reports {level : Level} {k : Kind} {α : Type} {onward : Parsed Tree → Except Fault α}
    (reports : Reports tokens bound level) (isReader : level ≠ .primary)
    (due : Due before level (some k)) (here : Here tokens bound before c)
    (failed : reader (unary bound) level c >>= onward = .error fault)
    (behind : ∀ {run : List Token} {e : Tree} {after : Cursor Token},
      Here tokens bound (before ++ run) after → Derives level run e →
        OperandAt tokens k c.position e → onward (e, after) = .error fault →
        fault.PointsAt tokens) : fault.PointsAt tokens := by
  obtain failed | ⟨⟨e, after⟩, read, failed⟩ := bind_eq_error.1 failed
  · exact reports due here failed
  · obtain ⟨run, reads, isPhrase, longest⟩ := here.taken level isReader read
    exact behind (here.append reads) isPhrase
      (here.operandAt reads isPhrase longest (.inl due)) failed

/-- The operand behind an operator is asked to be of the kind that the operator serves. -/
theorem operand_reports {level next : Level} {k : Kind} {token : Token} {α : Type}
    {onward : Parsed Tree → Except Fault α} (reports : Reports tokens bound next)
    (isNext : level.tighter? = some next) (isReader : next ≠ .primary)
    (isKind : level.operandKind? = some k) (begun : Begun before level)
    (here : Here tokens bound before c) (isFirst : c.peek? = some token)
    (isOperator : operator? token = some level)
    (failed : reader (unary bound) next c.advance >>= onward = .error fault)
    (behind : ∀ {run : List Token} {e : Tree} {after : Cursor Token},
      Here tokens bound (before ++ token :: run) after → Derives next run e →
        OperandAt tokens k c.advance.position e → onward (e, after) = .error fault →
        fault.PointsAt tokens) : fault.PointsAt tokens := by
  have due : Due (before ++ [token]) next (some k) := isKind ▸ .operand isNext begun isOperator
  refine due_reports reports isReader due (here.advance isFirst) failed ?_
  intro run e after here' isPhrase operandAt failed
  rw [← List.append_cons] at here'
  exact behind here' isPhrase operandAt failed

theorem operator?_factorSign (direction : Direction) :
    operator? direction.factorSign = some .product := by
  cases direction <;> rfl

theorem factors_reports (reports : Reports tokens bound .unary) {steps : Nat}
    {run : List (Expr Float (some .number))} (begun : Begun before .product)
    (here : Here tokens bound before c)
    (failed : factors (unary bound) steps run c = .error fault) : fault.PointsAt tokens := by
  induction steps generalizing before run c with
  | zero => cases failed
  | succ steps ih =>
      by_cases isSign : isFactorSign c.peek? = true
      · obtain ⟨direction, isFirst⟩ := isFactorSign_iff.1 isSign
        have isOperator := operator?_factorSign direction
        rw [factors_of_sign isFirst] at failed
        refine operand_reports reports rfl (by decide) rfl begun here isFirst isOperator failed ?_
        intro run e after here' isPhrase operandAt failed
        obtain failed | ⟨right, narrowed, failed⟩ := bind_eq_error.1 failed
        · exact operandAt.pointsAt failed
        · have fits : Fits Level.product.operandKind? e :=
            fits_of_serves rfl (operand_eq_ok_iff.1 narrowed)
          exact ih (.further rfl rfl begun isOperator isPhrase fits) here' failed
      · rw [factors_of_noSign isSign] at failed
        cases failed

theorem factorsAfter_reports (reports : Reports tokens bound .unary) {start : Nat} {first : Tree}
    (here : Here tokens bound before c)
    (mismatch : isFactorSign c.peek? = true → operand .number start first = .error fault →
      fault.PointsAt tokens)
    (begun : ∀ left, Serves .number first left → Begun before .product)
    (failed : factorsAfter (unary bound) start first c = .error fault) :
    fault.PointsAt tokens := by
  unfold factorsAfter at failed
  split at failed
  · rename_i isSign
    obtain failed | ⟨left, narrowed, failed⟩ := bind_eq_error.1 failed
    · exact mismatch isSign failed
    · obtain failed | ⟨_, _, failed⟩ := bind_eq_error.1 failed
      · exact factors_reports reports (begun left (operand_eq_ok_iff.1 narrowed)) here failed
      · cases failed
  · cases failed

/-- The operand before an operator is asked to be of the kind that the operator serves. -/
theorem Here.first_pointsAt {level next : Level} {k : Kind} {k' : Option Kind} {token : Token}
    {run : List Token} {after : Cursor Token} {e : Tree} (here : Here tokens bound before c)
    (due : Due before level k') (isNext : level.tighter? = some next)
    (isKind : level.operandKind? = some k) (isFirst : after.peek? = some token)
    (isJoint : joint? token = some level) (reads : Cursor.Reads run c after)
    (isPhrase : Derives next run e) (longest : Longest next run after.rest)
    (failed : operand k c.position e = .error fault) : fault.PointsAt tokens :=
  (here.operandAt reads isPhrase longest
    (.inr ⟨level, k', due, isNext, isKind, token, isFirst, isJoint⟩)).pointsAt failed

theorem multiplicative_reports (reports : Reports tokens bound .unary) :
    Reports tokens bound .product := by
  intro before k c fault due here failed
  obtain failed | ⟨⟨first, after⟩, read, failed⟩ := bind_eq_error.1 failed
  · exact reports (.first rfl due) here failed
  · obtain ⟨run, reads, isPhrase, longest⟩ := here.taken .unary (by decide) read
    refine factorsAfter_reports reports (here.append reads) ?_ ?_ failed
    · intro isSign
      obtain ⟨direction, isFirst⟩ := isFactorSign_iff.1 isSign
      have isJoint := joint?_of_operator? (operator?_factorSign direction)
      exact here.first_pointsAt due rfl rfl isFirst isJoint reads isPhrase longest
    · intro left serves
      exact .first rfl due isPhrase (fits_of_serves rfl serves)

theorem begun_further (begun : Begun before .sum) (next : Further .sum)
    (isPhrase : Derives .product next.part.tokens next.part.tree) :
    Begun (before ++ next.written) .sum := by
  obtain ⟨direction, ⟨run, tree, right, serves⟩, written, isWritten⟩ := next
  have fits : Fits Level.sum.operandKind? tree := fits_of_serves rfl serves
  cases isWritten with
  | plus => exact .further rfl rfl begun rfl isPhrase fits
  | minus => exact .further rfl rfl begun rfl isPhrase fits
  | negative rest isNegative => exact .negative begun isNegative isPhrase fits

theorem factorsAfter_number {unary : Parser} {start : Nat} {x : Float} {after : Cursor Token}
    {e : Tree} (read : factorsAfter unary start (.typed (.number x)) c = .ok (e, after)) :
    ∃ e' : Expr Float (some .number), e = .typed e' := by
  unfold factorsAfter at read
  split at read
  · obtain ⟨left, -, read⟩ := bind_eq_ok.1 read
    obtain ⟨⟨e', after'⟩, -, same⟩ := bind_eq_ok.1 read
    cases same
    exact ⟨e', rfl⟩
  · cases read
    exact ⟨.number x, rfl⟩

theorem operand_typed {k : Kind} {start : Nat} (e : Expr Float (some k)) :
    operand k start (.typed e) = .ok e :=
  operand_eq_ok_iff.2 (.typed e)

theorem term_reports (reports : Reports tokens bound .unary) {sign : TermSign}
    (begun : Begun before .sum) (here : Here tokens bound before c)
    (isSign : c.peek?.bind termSign? = some sign)
    (failed : term (unary bound) sign c = .error fault) : fault.PointsAt tokens := by
  have reports' := multiplicative_reports reports
  obtain ⟨token, isFirst, isSign⟩ := Option.bind_eq_some_iff.1 isSign
  cases token with
  | plus =>
      cases isSign
      refine operand_reports reports' rfl (by decide) rfl begun here isFirst rfl failed ?_
      exact fun _ _ operandAt failed => operandAt.pointsAt_last failed
  | minus =>
      cases isSign
      refine operand_reports reports' rfl (by decide) rfl begun here isFirst rfl failed ?_
      exact fun _ _ operandAt failed => operandAt.pointsAt_last failed
  | number x =>
      simp only [termSign?] at isSign
      split at isSign
      · rename_i isNegative
        cases isSign
        obtain failed | ⟨⟨e, after⟩, read, failed⟩ := bind_eq_error.1 failed
        · refine factorsAfter_reports reports (here.advance isFirst) ?_ ?_ failed
          · intro _ failed
            rw [operand_typed] at failed
            cases failed
          · exact fun _ _ => .negativeFactor begun isNegative
        · obtain ⟨e', rfl⟩ := factorsAfter_number read
          dsimp only at failed
          rw [operand_typed] at failed
          cases failed
      · cases isSign
  | _ => cases isSign

theorem terms_reports (reports : Reports tokens bound .unary) {steps : Nat}
    {run : List (Expr Float (some .number))} (begun : Begun before .sum)
    (here : Here tokens bound before c)
    (failed : terms (unary bound) steps run c = .error fault) : fault.PointsAt tokens := by
  induction steps generalizing before run c with
  | zero => cases failed
  | succ steps ih =>
      cases isSign : c.peek?.bind termSign? with
      | none =>
          rw [terms_of_noSign isSign] at failed
          cases failed
      | some sign =>
          rw [terms_of_sign isSign] at failed
          obtain failed | ⟨⟨right, after⟩, read, failed⟩ := bind_eq_error.1 failed
          · exact term_reports reports begun here isSign failed
          · obtain ⟨next, reads, isPhrase, -⟩ := term_sound (unary_sound bound) isSign read
            exact ih (begun_further begun next isPhrase) (here.append reads) failed

theorem joint?_of_termSign? {token : Token} {sign : TermSign}
    (isSign : termSign? token = some sign) : joint? token = some .sum := by
  cases token with
  | plus => rfl
  | minus => rfl
  | number x =>
      simp only [termSign?] at isSign
      split at isSign
      · rename_i isNegative
        exact if_pos isNegative
      · cases isSign
  | _ => cases isSign

theorem additive_reports (reports : Reports tokens bound .unary) :
    Reports tokens bound .sum := by
  intro before k c fault due here failed
  have reports' := multiplicative_reports reports
  obtain failed | ⟨⟨first, after⟩, read, failed⟩ := bind_eq_error.1 failed
  · exact reports' (.first rfl due) here failed
  · obtain ⟨run, reads, isPhrase, longest⟩ := here.taken .product (by decide) read
    dsimp only at failed
    split at failed
    · cases failed
    · rename_i sign isSign
      obtain ⟨token, isFirst, isSign'⟩ := Option.bind_eq_some_iff.1 isSign
      obtain failed | ⟨left, narrowed, failed⟩ := bind_eq_error.1 failed
      · exact here.first_pointsAt due rfl rfl isFirst (joint?_of_termSign? isSign') reads isPhrase
          longest failed
      · have begun : Begun (before ++ run) .sum :=
          .first rfl due isPhrase (fits_of_serves rfl (operand_eq_ok_iff.1 narrowed))
        obtain failed | ⟨_, _, failed⟩ := bind_eq_error.1 failed
        · exact terms_reports reports begun (here.append reads) failed
        · cases failed

theorem eq_comparison_of_comparison? {token : Token} {op : Comparison}
    (isOperator : comparison? token = some op) : token = .comparison op := by
  cases token with
  | comparison found => exact congrArg Token.comparison (Option.some.inj isOperator)
  | _ => cases isOperator

theorem relational_reports (reports : Reports tokens bound .unary) :
    Reports tokens bound .comparison := by
  intro before k c fault due here failed
  have reports' := additive_reports reports
  obtain failed | ⟨⟨left, after⟩, read, failed⟩ := bind_eq_error.1 failed
  · exact reports' (.first rfl due) here failed
  · obtain ⟨run, reads, isPhrase, longest⟩ := here.taken .sum (by decide) read
    dsimp only at failed
    split at failed
    · cases failed
    · rename_i op isComparison
      obtain ⟨token, isFirst, isComparison⟩ := Option.bind_eq_some_iff.1 isComparison
      obtain rfl := eq_comparison_of_comparison? isComparison
      obtain failed | ⟨l, narrowed, failed⟩ := bind_eq_error.1 failed
      · exact here.first_pointsAt due rfl rfl isFirst rfl reads isPhrase longest failed
      · have begun : Begun (before ++ run) .comparison :=
          .first rfl due isPhrase (fits_of_serves rfl (operand_eq_ok_iff.1 narrowed))
        have here' := here.append reads
        refine operand_reports reports' rfl (by decide) rfl begun here' isFirst rfl failed ?_
        exact fun _ _ operandAt failed => operandAt.pointsAt_last failed

theorem equality_reports (reports : Reports tokens bound .unary) :
    Reports tokens bound .equality := by
  intro before k c fault due here failed
  have reports' := relational_reports reports
  obtain failed | ⟨⟨left, after⟩, read, failed⟩ := bind_eq_error.1 failed
  · exact reports' (.first rfl due) here failed
  · obtain ⟨run, reads, isPhrase, -⟩ := here.taken .comparison (by decide) read
    dsimp only at failed
    split at failed
    · rename_i isFirst
      have fits : Fits Level.equality.operandKind? left := fun _ isAsked => nomatch isAsked
      have begun : Begun (before ++ run) .equality := .first rfl due isPhrase fits
      obtain failed | ⟨_, _, failed⟩ := bind_eq_error.1 failed
      · exact reports' (.operand rfl begun rfl) ((here.append reads).advance isFirst) failed
      · cases failed
    · cases failed

theorem reader_ofLogical (unary : Parser) (op : Logical) :
    reader unary (.ofLogical op) = junction op (reader unary (.belowLogical op)) := by
  cases op <;> rfl

theorem tighter?_ofLogical (op : Logical) :
    (Level.ofLogical op).tighter? = some (.belowLogical op) := by
  cases op <;> rfl

theorem operandKind?_ofLogical (op : Logical) :
    (Level.ofLogical op).operandKind? = some .boolean := by
  cases op <;> rfl

theorem belowLogical_ne_primary (op : Logical) : Level.belowLogical op ≠ .primary := by
  cases op <;> decide

theorem moreOperands_reports {op : Logical} (reports : Reports tokens bound (.belowLogical op))
    {steps : Nat} (begun : Begun before (.ofLogical op)) (here : Here tokens bound before c)
    (failed : moreOperands op (reader (unary bound) (.belowLogical op)) steps c = .error fault) :
    fault.PointsAt tokens := by
  induction steps generalizing before c with
  | zero => cases failed
  | succ steps ih =>
      by_cases isLogical : isLogical op c.peek? = true
      · obtain ⟨spelling, isFirst⟩ := isLogical_iff.1 isLogical
        have isChain : (Level.ofLogical op).isChain = true := by cases op <;> rfl
        rw [moreOperands_of_operator isFirst] at failed
        refine operand_reports reports (tighter?_ofLogical op) (belowLogical_ne_primary op)
          (operandKind?_ofLogical op) begun here isFirst rfl failed ?_
        intro run e after here' isPhrase operandAt failed
        obtain failed | ⟨operand, narrowed, failed⟩ := bind_eq_error.1 failed
        · exact operandAt.pointsAt failed
        · have fits := fits_of_serves (operandKind?_ofLogical op) (operand_eq_ok_iff.1 narrowed)
          obtain failed | ⟨_, _, failed⟩ := bind_eq_error.1 failed
          · exact ih (.further (tighter?_ofLogical op) isChain begun rfl isPhrase fits) here' failed
          · cases failed
      · rw [moreOperands_of_noOperator isLogical] at failed
        cases failed

theorem junction_reports {op : Logical} (reports : Reports tokens bound (.belowLogical op)) :
    Reports tokens bound (.ofLogical op) := by
  intro before k c fault due here failed
  rw [reader_ofLogical] at failed
  obtain failed | ⟨⟨first, after⟩, read, failed⟩ := bind_eq_error.1 failed
  · exact reports (.first (tighter?_ofLogical op) due) here failed
  · obtain ⟨run, reads, isPhrase, longest⟩ := here.taken _ (belowLogical_ne_primary op) read
    dsimp only at failed
    split at failed
    · rename_i isLogical
      obtain ⟨spelling, isFirst⟩ := isLogical_iff.1 isLogical
      obtain failed | ⟨left, narrowed, failed⟩ := bind_eq_error.1 failed
      · exact here.first_pointsAt due (tighter?_ofLogical op) (operandKind?_ofLogical op) isFirst
          rfl reads isPhrase longest failed
      · have fits := fits_of_serves (operandKind?_ofLogical op) (operand_eq_ok_iff.1 narrowed)
        obtain failed | ⟨_, _, failed⟩ := bind_eq_error.1 failed
        · exact moreOperands_reports reports (.first (tighter?_ofLogical op) due isPhrase fits)
            (here.append reads) failed
        · cases failed
    · cases failed

theorem expression_reports (reports : Reports tokens bound .unary) : Reports tokens bound .or :=
  @junction_reports _ _ .or (@junction_reports _ _ .and (equality_reports reports))

theorem expect_reports {expected : Token} {wanted : Wanted} (here : Here tokens bound before c)
    (failed : expect expected wanted c = .error fault) : fault.PointsAt tokens := by
  unfold expect at failed
  split at failed
  · cases failed
    trivial
  · rename_i found isFirst
    split at failed
    · cases failed
    · rename_i differ
      cases failed
      exact ⟨here.getElem?_position.trans isFirst, Ne.symm differ⟩

theorem moreArguments_reports (reports : Reports tokens bound .or) {k : Kind} {steps : Nat}
    (due : Due before .or (some k)) (here : Here tokens bound before c)
    (failed : moreArguments (expression (unary bound)) steps c = .error fault) :
    fault.PointsAt tokens := by
  induction steps generalizing before c with
  | zero =>
      cases failed
      trivial
  | succ steps ih =>
      obtain failed | ⟨⟨e, after⟩, read, failed⟩ := bind_eq_error.1 failed
      · exact reports due here failed
      · obtain ⟨run, reads, isPhrase, -⟩ := here.taken .or (by decide) read
        have here' := here.append reads
        dsimp only at failed
        split at failed
        · rename_i isComma
          obtain failed | ⟨_, _, failed⟩ := bind_eq_error.1 failed
          · exact ih (.nextArgument due isPhrase) (here'.advance isComma) failed
          · cases failed
        · cases failed
        · rename_i found noComma noClosing isFirst
          cases failed
          exact ⟨here'.getElem?_position.trans isFirst, Ne.symm noClosing⟩
        · cases failed
          trivial

theorem moreArguments_operandAt {k : Kind} {steps : Nat} {after : Cursor Token}
    {args : List (Nat × Tree)} (due : Due before .or (some k)) (here : Here tokens bound before c)
    (read : moreArguments (expression (unary bound)) steps c = .ok (args, after)) :
    ∀ arg ∈ args, OperandAt tokens k arg.1 arg.2 := by
  induction steps generalizing before c args with
  | zero => cases read
  | succ steps ih =>
      obtain ⟨⟨e, between⟩, readPhrase, read⟩ := bind_eq_ok.1 read
      obtain ⟨run, reads, isPhrase, longest⟩ := here.taken .or (by decide) readPhrase
      have first := here.operandAt reads isPhrase longest (.inl due)
      dsimp only at read
      split at read
      · rename_i isComma
        obtain ⟨⟨rest, final⟩, readRest, same⟩ := bind_eq_ok.1 read
        cases same
        have others := ih (.nextArgument due isPhrase) ((here.append reads).advance isComma)
          readRest
        exact List.forall_mem_cons.2 ⟨first, others⟩
      · cases read
        exact List.forall_mem_singleton.2 first
      · cases read
      · cases read

theorem arguments_reports (reports : Reports tokens bound .or) {f : Function} {k : Option Kind}
    (due : Due before .primary k) (here : Here tokens bound (before ++ [.function f]) c)
    (failed : arguments (expression (unary bound)) c = .error fault) : fault.PointsAt tokens := by
  obtain failed | ⟨inside, readParen, failed⟩ := bind_eq_error.1 failed
  · exact expect_reports here failed
  · split at failed
    · cases failed
    · exact moreArguments_reports reports (.argument f due)
        (here.append (reads_of_expect readParen)) failed

theorem arguments_operandAt {f : Function} {k : Option Kind} {after : Cursor Token}
    {args : List (Nat × Tree)} (due : Due before .primary k)
    (here : Here tokens bound (before ++ [.function f]) c)
    (read : arguments (expression (unary bound)) c = .ok (args, after)) :
    ∀ arg ∈ args, OperandAt tokens f.argumentKind arg.1 arg.2 := by
  obtain ⟨inside, readParen, read⟩ := bind_eq_ok.1 read
  split at read
  · cases read
    simp
  · exact moreArguments_operandAt (.argument f due) (here.append (reads_of_expect readParen)) read

/-- Arguments that are read are phrases between parentheses, with commas between them. -/
theorem reads_of_arguments {after : Cursor Token} {args : List (Nat × Tree)}
    (read : arguments (expression (unary bound)) c = .ok (args, after)) :
    ∃ phrases : List (List Token),
      Cursor.Reads (.leftParen :: ([Token.comma].intercalate phrases ++ [.rightParen])) c after ∧
      (∀ phrase ∈ phrases, ∃ e, Derives .or phrase e) ∧ phrases.length = args.length := by
  obtain ⟨inside, readParen, read⟩ := bind_eq_ok.1 read
  have paren := reads_of_expect readParen
  split at read
  · rename_i isClosing
    cases read
    refine ⟨[], paren.append (Cursor.reads_advance_of_peek? isClosing), ?_, rfl⟩
    simp only [List.not_mem_nil, false_implies, implies_true]
  · obtain ⟨phrases, -, reads, derived, same⟩ :=
      moreArguments_sound (expression_sound (unary_sound bound)) read
    refine ⟨phrases.map Prod.fst, paren.append reads, ?_, ?_⟩
    · exact List.forall_mem_map.2 fun phrase isIn => ⟨phrase.2, derived phrase isIn⟩
    · have sameLength := congrArg List.length same
      rw [List.length_map, List.length_map] at sameLength
      rw [List.length_map, sameLength]

section

variable {f : Function} {k : Option Kind} {after : Cursor Token} {args : List (Nat × Tree)}

theorem argumentCount_pointsAt (due : Due before .primary k)
    (here : Here tokens (bound + 1) before c) (isFirst : c.peek? = some (.function f))
    (read : arguments (expression (unary bound)) c.advance = .ok (args, after))
    (isWrong : isWrongCount f args.length = true) :
    (Fault.argumentCount f args.length c.position).PointsAt tokens := by
  obtain ⟨phrases, reads, derived, count⟩ := reads_of_arguments read
  refine ⟨isWrong, before, after.rest, k, phrases, ?_, here.length_eq, due, derived, count⟩
  rw [((here.advance isFirst).append reads).tokens_eq]
  simp only [List.append_assoc, List.cons_append, List.nil_append]

theorem call_reports (due : Due before .primary k) (here : Here tokens (bound + 1) before c)
    (isFirst : c.peek? = some (.function f))
    (read : arguments (expression (unary bound)) c.advance = .ok (args, after))
    (failed : call f c.position args = .error fault) : fault.PointsAt tokens := by
  have operands := arguments_operandAt due (here.inside isFirst) read
  unfold call at failed
  split at failed
  · cases failed
    exact argumentCount_pointsAt due here isFirst read rfl
  · obtain failed | ⟨_, _, failed⟩ := bind_eq_error.1 failed
    · obtain ⟨arg, isIn, failed⟩ := exists_of_mapM_eq_error failed
      exact (operands arg isIn).pointsAt failed
    · cases failed
  · obtain failed | ⟨_, _, failed⟩ := bind_eq_error.1 failed
    · exact (operands _ List.mem_cons_self).pointsAt failed
    · cases failed
  · rename_i several
    cases failed
    refine argumentCount_pointsAt due here isFirst read (bne_iff_ne.2 ?_)
    intro isOne
    obtain ⟨⟨start, e⟩, rfl⟩ := List.length_eq_one_iff.1 isOne
    exact several start e rfl

end

theorem unary_reports (tokens : List Token) (bound : Nat) : Reports tokens bound .unary := by
  induction bound with
  | zero =>
      intro before k c fault due here failed
      cases failed
      trivial
  | succ bound reports =>
      intro before k c fault due here failed
      have whole := expression_reports reports
      have due' : Due before .primary none := .first rfl due
      cases isFirst : c.peek? with
      | none =>
          rw [reader, unary_atEnd _ isFirst] at failed
          cases failed
          trivial
      | some token =>
          have inside := here.inside isFirst
          rw [reader, unary, isFirst] at failed
          cases token with
          | minus =>
              refine due_reports reports (by decide) (.negate due) inside failed ?_
              exact fun _ _ operandAt failed => operandAt.pointsAt_last failed
          | not =>
              refine due_reports reports (by decide) (.not due) inside failed ?_
              exact fun _ _ operandAt failed => operandAt.pointsAt_last failed
          | number x => cases failed
          | boolean b => cases failed
          | string s => cases failed
          | path p =>
              dsimp only at failed
              split at failed
              · rename_i isOtherwise
                obtain failed | ⟨_, _, failed⟩ := bind_eq_error.1 failed
                · exact reports (.default p due') (inside.advance isOtherwise) failed
                · cases failed
              · cases failed
          | leftParen =>
              obtain failed | ⟨⟨e, after⟩, read, failed⟩ := bind_eq_error.1 failed
              · exact whole (.parens due') inside failed
              · obtain ⟨run, reads, -⟩ := inside.taken .or (by decide) read
                obtain failed | ⟨_, _, failed⟩ := bind_eq_error.1 failed
                · exact expect_reports (inside.append reads) failed
                · cases failed
          | function f =>
              obtain failed | ⟨⟨args, after⟩, read, failed⟩ := bind_eq_error.1 failed
              · exact arguments_reports whole due' inside failed
              · obtain failed | ⟨_, _, failed⟩ := bind_eq_error.1 failed
                · exact call_reports due' here isFirst read failed
                · cases failed
          | _ =>
              cases failed
              exact here.getElem?_position.trans isFirst

end

theorem ofTokens_fault_pointsAt {tokens : List Token} {fault : Fault}
    (failed : ofTokens tokens = .error fault) : fault.PointsAt tokens := by
  have here : Here tokens tokens.length [] (Cursor.ofList tokens) :=
    ⟨Cursor.Reads.refl _, Nat.le_refl _⟩
  obtain failed | ⟨⟨e, after⟩, read, failed⟩ := bind_eq_error.1 failed
  · exact expression_reports (unary_reports tokens _) .start here failed
  · obtain ⟨run, reads, -⟩ := here.taken .or (by decide) read
    dsimp only at failed
    split at failed
    · cases failed
    · rename_i found isNext
      cases failed
      exact (here.append reads).getElem?_position.trans isNext

/-- Why tokens are no expression is said of what is reported. A token that may not stand where it
does is reported whatever stands behind it. -/
theorem ofTokens_fault {tokens : List Token} {fault : Fault}
    (failed : ofTokens tokens = .error fault) :
    fault.PointsAt tokens ∧
      ∀ position, fault.syntaxPosition? = some position →
        ∀ other : List Token, other.take (position + 1) = tokens.take (position + 1) →
          ofTokens other = .error fault :=
  ⟨ofTokens_fault_pointsAt failed, fun _ isAt _ agree => ofTokens_fault_local isAt agree failed⟩

/-- Comparisons do not chain, whatever stands behind the second one. -/
theorem ofTokens_fault_second_comparison :
    let tokens : List Token :=
      [.number 1, .comparison .less, .number 2, .comparison .less, .number 3]
    let fault : Fault := .unexpectedToken (.comparison .less) 3
    ofTokens tokens = .error fault ∧ fault.PointsAt tokens ∧
      ofTokens (tokens.take 4 ++ [.rightParen]) = .error fault := by
  intro tokens fault
  have failed : ofTokens tokens = .error fault := by rfl
  obtain ⟨points, isLocal⟩ := ofTokens_fault failed
  exact ⟨failed, points, isLocal 3 rfl _ rfl⟩

end PathExpr.Expr
