import PathExpr.Proofs.Grammar.Basic

set_option autoImplicit false

namespace PathExpr.Expr

theorem bind_eq_ok {ε α β : Type} {first : Except ε α} {next : α → Except ε β} {b : β} :
    first >>= next = .ok b ↔ ∃ a, first = .ok a ∧ next a = .ok b := by
  cases first with
  | error fault => simp only [bind, Except.bind, reduceCtorEq, false_and, exists_false]
  | ok a => simp only [bind, Except.bind, Except.ok.injEq, exists_eq_left']

theorem bind_eq_error {ε α β : Type} {first : Except ε α} {next : α → Except ε β} {fault : ε} :
    first >>= next = .error fault ↔
      first = .error fault ∨ ∃ a, first = .ok a ∧ next a = .error fault := by
  cases first with
  | error fault' =>
      simp only [bind, Except.bind, Except.error.injEq, reduceCtorEq, false_and, exists_false,
        or_false]
  | ok a => simp only [bind, Except.bind, reduceCtorEq, Except.ok.injEq, exists_eq_left', false_or]

/-- Whatever is read derives the tree that is given for it. Each level passes this on from the
reader of the tightest one, and induction on the bound of that reader closes the circle. -/
def Sound (level : Level) (read : Parser) : Prop :=
  ∀ {c after : Cursor Token} {e : Tree}, read c = .ok (e, after) →
    ∃ run, Cursor.Reads run c after ∧ Derives level run e

theorem ofRun_eq_joinedFrom (op : Associative) {run : List (Expr Float (some .number))} :
    ofRun op run = joinedFrom op run [] := by
  match run with
  | [] => rfl
  | [_] => rfl
  | _ :: _ :: _ => rfl

/-- The run that is left behind a further operand. -/
def extended (op : Associative) (run : List (Expr Float (some .number))) :
    Direction × Expr Float (some .number) → List (Expr Float (some .number))
  | (.along, e) => run ++ [e]
  | (.against, e) => [inverse op (ofRun op run) e]

theorem extended_ne_nil (op : Associative) (run : List (Expr Float (some .number)))
    (step : Direction × Expr Float (some .number)) : extended op run step ≠ [] := by
  obtain ⟨direction, e⟩ := step
  cases direction with
  | along => exact List.append_ne_nil_of_right_ne_nil run (List.cons_ne_nil e [])
  | against => exact List.cons_ne_nil _ _

theorem joinedFrom_cons (op : Associative) {run : List (Expr Float (some .number))}
    (begun : run ≠ []) (step : Direction × Expr Float (some .number))
    (rest : List (Direction × Expr Float (some .number))) :
    joinedFrom op run (step :: rest) = joinedFrom op (extended op run step) rest := by
  obtain ⟨direction, e⟩ := step
  match run, begun with
  | [_], _ => cases direction <;> rfl
  | _ :: _ :: _, _ => cases direction <;> rfl

/-- From one cursor to another stand the operands `rest`, and with them the run makes `e`. -/
structure Continues (op : Associative) (run : List (Expr Float (some .number)))
    (rest : List (Further op)) (c after : Cursor Token) (e : Expr Float (some .number)) :
    Prop where
  reads : Cursor.Reads (rest.flatMap Further.written) c after
  phrases : ∀ next ∈ rest, Derives (.belowAssociative op) next.part.tokens next.part.tree
  tree : e = joinedFrom op run (rest.map Further.step)

theorem Continues.nil (op : Associative) (run : List (Expr Float (some .number)))
    (c : Cursor Token) : Continues op run [] c c (ofRun op run) where
  reads := Cursor.Reads.refl c
  phrases := by simp only [List.not_mem_nil, false_implies, implies_true]
  tree := ofRun_eq_joinedFrom op

theorem Continues.cons {op : Associative} {run : List (Expr Float (some .number))}
    {next : Further op} {rest : List (Further op)} {c between after : Cursor Token}
    {e : Expr Float (some .number)} (begun : run ≠ [])
    (reads : Cursor.Reads next.written c between)
    (phrase : Derives (.belowAssociative op) next.part.tokens next.part.tree)
    (onward : Continues op (extended op run next.step) rest between after e) :
    Continues op run (next :: rest) c after e where
  reads := by
    rw [List.flatMap_cons]
    exact reads.append onward.reads
  phrases := by
    intro other isIn
    rcases List.mem_cons.1 isIn with rfl | isIn
    · exact phrase
    · exact onward.phrases other isIn
  tree := by rw [List.map_cons, joinedFrom_cons op begun, onward.tree]

/-- A first operand and what continues it make a phrase of the level of the operator. -/
theorem Continues.derives {op : Associative} {tokens : List Token} {tree : Tree}
    {left e : Expr Float (some .number)} {rest : List (Further op)} {c after : Cursor Token}
    (onward : Continues op [left] rest c after e) (several : rest ≠ [])
    (serves : Serves .number tree left) (phrase : Derives (.belowAssociative op) tokens tree) :
    Derives (.ofAssociative op) (tokens ++ rest.flatMap Further.written) (.typed e) := by
  let first : Part .number := ⟨tokens, tree, left, serves⟩
  have whole : Derives (.ofAssociative op) (first.tokens ++ rest.flatMap Further.written)
      (.typed (joined op first.operand (rest.map Further.step))) :=
    .chain several phrase onward.phrases
  rw [onward.tree]
  exact whole

def Direction.factorSign : Direction → Token
  | along => .star
  | against => .slash

theorem isFactorSign_iff {t : Option Token} :
    isFactorSign t = true ↔ ∃ direction : Direction, t = some direction.factorSign := by
  constructor
  · intro isSign
    simp only [isFactorSign] at isSign
    split at isSign
    · exact ⟨.along, rfl⟩
    · exact ⟨.against, rfl⟩
    · cases isSign
  · rintro ⟨direction, rfl⟩
    cases direction <;> rfl

theorem written_factor (direction : Direction) (phrase : List Token) :
    Written .product direction phrase (direction.factorSign :: phrase) := by
  cases direction with
  | along => exact .star phrase
  | against => exact .slash phrase

section

variable {unary : Parser}

theorem factors_of_sign {direction : Direction} {bound : Nat}
    {run : List (Expr Float (some .number))} {c : Cursor Token}
    (isSign : c.peek? = some direction.factorSign) :
    factors unary (bound + 1) run c = (do
      let (e, after) ← unary c.advance
      let right ← operand .number c.advance.position e
      factors unary bound (extended .product run (direction, right)) after) := by
  rw [factors, if_pos (isFactorSign_iff.2 ⟨direction, isSign⟩)]
  cases direction with
  | along => simp only [isSign, Direction.factorSign, ↓reduceIte, extended]
  | against =>
      simp only [isSign, Direction.factorSign, Option.some.injEq, reduceCtorEq, ↓reduceIte,
        extended, inverse]

theorem factors_sound (sound : Sound .unary unary) {bound : Nat}
    {run : List (Expr Float (some .number))} {c after : Cursor Token}
    {e : Expr Float (some .number)} (begun : run ≠ [])
    (read : factors unary bound run c = .ok (e, after)) :
    ∃ rest : List (Further .product), Continues .product run rest c after e ∧
      (0 < bound → isFactorSign c.peek? = true → rest ≠ []) := by
  induction bound generalizing run c with
  | zero =>
      cases read
      exact ⟨[], .nil .product run _, fun positive => absurd positive (Nat.lt_irrefl 0)⟩
  | succ bound ih =>
      by_cases isSign : isFactorSign c.peek? = true
      · obtain ⟨direction, isFirst⟩ := isFactorSign_iff.1 isSign
        simp only [factors_of_sign isFirst, bind_eq_ok, Prod.exists, operand_eq_ok_iff] at read
        obtain ⟨tree, between, readPhrase, right, serves, readRest⟩ := read
        obtain ⟨tokens, reads, phrase⟩ := sound readPhrase
        obtain ⟨rest, onward, -⟩ := ih (extended_ne_nil .product run _) readRest
        let next : Further .product :=
          ⟨direction, ⟨tokens, tree, right, serves⟩, _, written_factor direction tokens⟩
        have readsNext : Cursor.Reads next.written c between :=
          (Cursor.reads_advance_of_peek? isFirst).append reads
        exact ⟨next :: rest, .cons begun readsNext phrase onward,
          fun _ _ => List.cons_ne_nil next rest⟩
      · rw [factors, if_neg isSign] at read
        cases read
        exact ⟨[], .nil .product run _, fun _ isSign' => absurd isSign' isSign⟩

/-- Reading on behind a phrase of the tightest level makes it a phrase of a product. -/
theorem factorsAfter_sound (sound : Sound .unary unary) {start : Nat} {tokens : List Token}
    {first e : Tree} {c after : Cursor Token} (phrase : Derives .unary tokens first)
    (read : factorsAfter unary start first c = .ok (e, after)) :
    ∃ run, Cursor.Reads run c after ∧ Derives .product (tokens ++ run) e := by
  simp only [factorsAfter] at read
  split at read
  · rename_i isSign
    simp only [bind_eq_ok, Prod.exists, operand_eq_ok_iff] at read
    obtain ⟨left, serves, e', after', readRest, same⟩ := read
    cases same
    obtain ⟨rest, onward, several⟩ := factors_sound sound (List.cons_ne_nil left []) readRest
    have some : 0 < c.rest.length := by
      obtain ⟨direction, isFirst⟩ := isFactorSign_iff.1 isSign
      exact Cursor.length_pos_of_peek? isFirst
    exact ⟨_, onward.reads, onward.derives (several some isSign) serves phrase⟩
  · cases read
    refine ⟨[], Cursor.Reads.refl _, ?_⟩
    rw [List.append_nil]
    exact .tighter rfl phrase

theorem multiplicative_sound (sound : Sound .unary unary) :
    Sound .product (multiplicative unary) := by
  intro c after e read
  simp only [multiplicative, bind_eq_ok, Prod.exists] at read
  obtain ⟨first, between, readFirst, readRest⟩ := read
  obtain ⟨tokens, reads, phrase⟩ := sound readFirst
  obtain ⟨run, reads', phrase'⟩ := factorsAfter_sound sound phrase readRest
  exact ⟨tokens ++ run, reads.append reads', phrase'⟩

def TermSign.direction : TermSign → Direction
  | .plus => .along
  | .minus => .against
  | .minusNumber _ => .against

theorem term_sound (sound : Sound .unary unary) {sign : TermSign} {c after : Cursor Token}
    {right : Expr Float (some .number)} (isSign : c.peek?.bind termSign? = some sign)
    (read : term unary sign c = .ok (right, after)) :
    ∃ next : Further .sum, Cursor.Reads next.written c after ∧
      Derives .product next.part.tokens next.part.tree ∧
      next.step = (sign.direction, right) := by
  obtain ⟨token, isFirst, isSign⟩ := Option.bind_eq_some_iff.1 isSign
  have reads := Cursor.reads_advance_of_peek? isFirst
  cases token with
  | plus =>
      cases isSign
      simp only [term, bind_eq_ok, Prod.exists, operand_eq_ok_iff] at read
      obtain ⟨tree, after, readPhrase, right, serves, same⟩ := read
      cases same
      obtain ⟨tokens, reads', phrase⟩ := multiplicative_sound sound readPhrase
      exact ⟨⟨.along, ⟨tokens, tree, right, serves⟩, _, .plus tokens⟩, reads.append reads', phrase,
        rfl⟩
  | minus =>
      cases isSign
      simp only [term, bind_eq_ok, Prod.exists, operand_eq_ok_iff] at read
      obtain ⟨tree, after, readPhrase, right, serves, same⟩ := read
      cases same
      obtain ⟨tokens, reads', phrase⟩ := multiplicative_sound sound readPhrase
      exact ⟨⟨.against, ⟨tokens, tree, right, serves⟩, _, .minus tokens⟩, reads.append reads',
        phrase, rfl⟩
  | number x =>
      simp only [termSign?] at isSign
      split at isSign
      · rename_i isNegative
        cases isSign
        simp only [term, bind_eq_ok, Prod.exists, operand_eq_ok_iff] at read
        obtain ⟨tree, after, readPhrase, right, serves, same⟩ := read
        cases same
        have magnitude : Derives .unary [.number (-x)] (.typed (.number (-x))) :=
          .tighter rfl (.number (-x))
        obtain ⟨run, reads', phrase⟩ := factorsAfter_sound sound magnitude readPhrase
        exact ⟨⟨.against, ⟨_, tree, right, serves⟩, _, .negative run isNegative⟩,
          reads.append reads', phrase, rfl⟩
      · cases isSign
  | _ => cases isSign

theorem terms_of_sign {sign : TermSign} {bound : Nat} {run : List (Expr Float (some .number))}
    {c : Cursor Token} (isSign : c.peek?.bind termSign? = some sign) :
    terms unary (bound + 1) run c = (do
      let (right, after) ← term unary sign c
      terms unary bound (extended .sum run (sign.direction, right)) after) := by
  simp only [terms, isSign]
  cases sign <;> rfl

theorem terms_sound (sound : Sound .unary unary) {bound : Nat}
    {run : List (Expr Float (some .number))} {c after : Cursor Token}
    {e : Expr Float (some .number)} (begun : run ≠ [])
    (read : terms unary bound run c = .ok (e, after)) :
    ∃ rest : List (Further .sum), Continues .sum run rest c after e ∧
      (0 < bound → c.peek?.bind termSign? ≠ none → rest ≠ []) := by
  induction bound generalizing run c with
  | zero =>
      cases read
      exact ⟨[], .nil .sum run _, fun positive => absurd positive (Nat.lt_irrefl 0)⟩
  | succ bound ih =>
      cases isFirst : c.peek?.bind termSign? with
      | none =>
          rw [terms, isFirst] at read
          cases read
          exact ⟨[], .nil .sum run _, fun _ isSign => absurd rfl isSign⟩
      | some sign =>
          simp only [terms_of_sign isFirst, bind_eq_ok, Prod.exists] at read
          obtain ⟨right, between, readTerm, readRest⟩ := read
          obtain ⟨next, reads, phrase, step⟩ := term_sound sound isFirst readTerm
          rw [← step] at readRest
          obtain ⟨rest, onward, -⟩ := ih (extended_ne_nil .sum run next.step) readRest
          exact ⟨next :: rest, .cons begun reads phrase onward,
            fun _ _ => List.cons_ne_nil next rest⟩

theorem additive_sound (sound : Sound .unary unary) : Sound .sum (additive unary) := by
  intro c after e read
  simp only [additive, bind_eq_ok, Prod.exists] at read
  obtain ⟨first, between, readFirst, readRest⟩ := read
  obtain ⟨tokens, reads, phrase⟩ := multiplicative_sound sound readFirst
  split at readRest
  · cases readRest
    exact ⟨tokens, reads, .tighter rfl phrase⟩
  · rename_i sign isSign
    simp only [bind_eq_ok, Prod.exists, operand_eq_ok_iff] at readRest
    obtain ⟨left, serves, e', after', readTerms, same⟩ := readRest
    cases same
    obtain ⟨rest, onward, several⟩ := terms_sound sound (List.cons_ne_nil left []) readTerms
    have some : 0 < between.rest.length := by
      obtain ⟨token, isFirst, -⟩ := Option.bind_eq_some_iff.1 isSign
      exact Cursor.length_pos_of_peek? isFirst
    have signed : between.peek?.bind termSign? ≠ none := by
      rw [isSign]
      exact Option.some_ne_none sign
    exact ⟨_, reads.append onward.reads, onward.derives (several some signed) serves phrase⟩

theorem relational_sound (sound : Sound .unary unary) :
    Sound .comparison (relational unary) := by
  intro c after e read
  simp only [relational, bind_eq_ok, Prod.exists] at read
  obtain ⟨left, between, readLeft, readRest⟩ := read
  obtain ⟨tokens, reads, phrase⟩ := additive_sound sound readLeft
  split at readRest
  · cases readRest
    exact ⟨tokens, reads, .tighter rfl phrase⟩
  · rename_i op isOperator
    obtain ⟨token, isFirst, isOperator⟩ := Option.bind_eq_some_iff.1 isOperator
    obtain rfl : token = .comparison op := by
      cases token with
      | comparison found => exact congrArg Token.comparison (Option.some.inj isOperator)
      | _ => cases isOperator
    simp only [bind_eq_ok, Prod.exists, operand_eq_ok_iff] at readRest
    obtain ⟨l, serves, right, final, readRight, r, serves', same⟩ := readRest
    cases same
    obtain ⟨tokens', reads', phrase'⟩ := additive_sound sound readRight
    let left : Part .number := ⟨tokens, left, l, serves⟩
    let right : Part .number := ⟨tokens', right, r, serves'⟩
    have whole : Derives .comparison (left.tokens ++ .comparison op :: right.tokens)
        (.typed (.compare op left.operand right.operand)) := .compare phrase phrase'
    exact ⟨_, reads.append ((Cursor.reads_advance_of_peek? isFirst).append reads'), whole⟩

theorem equality_sound (sound : Sound .unary unary) : Sound .equality (equality unary) := by
  intro c after e read
  simp only [equality, bind_eq_ok, Prod.exists] at read
  obtain ⟨left, between, readLeft, readRest⟩ := read
  obtain ⟨tokens, reads, phrase⟩ := relational_sound sound readLeft
  split at readRest
  · rename_i isFirst
    simp only [bind_eq_ok, Prod.exists] at readRest
    obtain ⟨right, final, readRight, same⟩ := readRest
    cases same
    obtain ⟨tokens', reads', phrase'⟩ := relational_sound sound readRight
    exact ⟨_, reads.append ((Cursor.reads_advance_of_peek? isFirst).append reads'),
      .equal phrase phrase'⟩
  · cases readRest
    exact ⟨tokens, reads, .tighter rfl phrase⟩

theorem isLogical_iff {op : Logical} {t : Option Token} :
    isLogical op t = true ↔ ∃ spelling, t = some (.logical op spelling) := by
  constructor
  · intro isOperator
    simp only [isLogical] at isOperator
    split at isOperator
    · rename_i found spelling
      exact ⟨spelling, by rw [eq_of_beq isOperator]⟩
    · cases isOperator
  · rintro ⟨spelling, rfl⟩
    exact beq_self_eq_true op

theorem moreOperands_sound {op : Logical} {part : Parser} (sound : Sound (.belowLogical op) part)
    {bound : Nat} {c after : Cursor Token} {operands : List (Expr Float (some .boolean))}
    (read : moreOperands op part bound c = .ok (operands, after)) :
    ∃ rest : List (Spelling × Part .boolean),
      Cursor.Reads (rest.flatMap fun next => .logical op next.1 :: next.2.tokens) c after ∧
      (∀ next ∈ rest, Derives (.belowLogical op) next.2.tokens next.2.tree) ∧
      operands = rest.map (fun next => next.2.operand) ∧
      (0 < bound → isLogical op c.peek? = true → rest ≠ []) := by
  induction bound generalizing c operands with
  | zero =>
      cases read
      exact ⟨[], Cursor.Reads.refl _, by simp, rfl,
        fun positive => absurd positive (Nat.lt_irrefl 0)⟩
  | succ bound ih =>
      simp only [moreOperands] at read
      split at read
      · rename_i isOperator
        simp only [bind_eq_ok, Prod.exists, operand_eq_ok_iff] at read
        obtain ⟨tree, between, readPart, e, serves, operands, final, readRest, same⟩ := read
        cases same
        obtain ⟨tokens, reads, phrase⟩ := sound readPart
        obtain ⟨rest, reads', phrases, rfl, -⟩ := ih readRest
        obtain ⟨spelling, isFirst⟩ := isLogical_iff.1 isOperator
        let next : Spelling × Part .boolean := (spelling, ⟨tokens, tree, e, serves⟩)
        refine ⟨next :: rest, ?_, ?_, rfl, fun _ _ => List.cons_ne_nil next rest⟩
        · rw [List.flatMap_cons]
          exact ((Cursor.reads_advance_of_peek? isFirst).append reads).append reads'
        · intro other isIn
          rcases List.mem_cons.1 isIn with rfl | isIn
          · exact phrase
          · exact phrases other isIn
      · rename_i noOperator
        cases read
        exact ⟨[], Cursor.Reads.refl _, by simp, rfl,
          fun _ isOperator => absurd isOperator noOperator⟩

theorem junction_sound {op : Logical} {part : Parser} (sound : Sound (.belowLogical op) part) :
    Sound (.ofLogical op) (junction op part) := by
  intro c after e read
  simp only [junction, bind_eq_ok, Prod.exists] at read
  obtain ⟨tree, between, readFirst, readRest⟩ := read
  obtain ⟨tokens, reads, phrase⟩ := sound readFirst
  split at readRest
  · rename_i isOperator
    simp only [bind_eq_ok, Prod.exists, operand_eq_ok_iff] at readRest
    obtain ⟨e, serves, operands, final, readRest, same⟩ := readRest
    cases same
    obtain ⟨rest, reads', phrases, rfl, several⟩ := moreOperands_sound sound readRest
    have some : 0 < between.rest.length := by
      obtain ⟨spelling, isFirst⟩ := isLogical_iff.1 isOperator
      exact Cursor.length_pos_of_peek? isFirst
    let first : Part .boolean := ⟨tokens, tree, e, serves⟩
    have whole : Derives (.ofLogical op)
        (first.tokens ++ rest.flatMap fun next => .logical op next.1 :: next.2.tokens)
        (.typed (.logic op (first.operand :: rest.map fun next => next.2.operand))) :=
      .logic (several some isOperator) phrase phrases
    exact ⟨_, reads.append reads', whole⟩
  · cases readRest
    refine ⟨tokens, reads, .tighter ?_ phrase⟩
    cases op <;> rfl

theorem expression_sound (sound : Sound .unary unary) : Sound .or (expression unary) :=
  @junction_sound .or _ (@junction_sound .and _ (equality_sound sound))

end

theorem reads_of_expect {expected : Token} {wanted : Wanted} {c after : Cursor Token}
    (read : expect expected wanted c = .ok after) : Cursor.Reads [expected] c after := by
  simp only [expect] at read
  split at read
  · cases read
  · rename_i found isFirst
    split at read
    · rename_i same
      cases read
      rw [← same]
      exact Cursor.reads_advance_of_peek? isFirst
    · cases read

/-- Arguments that are read are phrases with commas between them and a parenthesis behind them. -/
theorem moreArguments_sound {whole : Parser} (sound : Sound .or whole) {bound : Nat}
    {c after : Cursor Token} {args : List (Nat × Tree)}
    (read : moreArguments whole bound c = .ok (args, after)) :
    ∃ phrases : List (List Token × Tree), phrases ≠ [] ∧
      Cursor.Reads ([Token.comma].intercalate (phrases.map Prod.fst) ++ [.rightParen]) c after ∧
      (∀ phrase ∈ phrases, Derives .or phrase.1 phrase.2) ∧
      args.map Prod.snd = phrases.map Prod.snd := by
  induction bound generalizing c args with
  | zero => cases read
  | succ bound ih =>
      simp only [moreArguments, bind_eq_ok, Prod.exists] at read
      obtain ⟨e, between, readPhrase, readRest⟩ := read
      obtain ⟨tokens, reads, phrase⟩ := sound readPhrase
      split at readRest
      · rename_i isComma
        simp only [bind_eq_ok, Prod.exists] at readRest
        obtain ⟨args, final, readRest, same⟩ := readRest
        cases same
        obtain ⟨phrases, several, reads', derived, same⟩ := ih readRest
        refine ⟨(tokens, e) :: phrases, List.cons_ne_nil _ _, ?_, ?_, ?_⟩
        · rw [List.map_cons, List.intercalate_cons_of_ne_nil (by simpa using several)]
          have comma := Cursor.reads_advance_of_peek? isComma
          simpa only [List.append_assoc] using reads.append (comma.append reads')
        · intro other isIn
          rcases List.mem_cons.1 isIn with rfl | isIn
          · exact phrase
          · exact derived other isIn
        · rw [List.map_cons, List.map_cons, same]
      · rename_i isClosing
        cases readRest
        refine ⟨[(tokens, e)], List.cons_ne_nil _ _, ?_, ?_, rfl⟩
        · simpa only [List.map_cons, List.map_nil, List.intercalate_singleton] using
            reads.append (Cursor.reads_advance_of_peek? isClosing)
        · intro other isIn
          rw [List.mem_singleton.1 isIn]
          exact phrase
      · cases readRest
      · cases readRest

/-- Phrases whose trees all serve a kind are parts of it. -/
theorem parts_of_mapM {k : Kind} {args : List (Nat × Tree)} {operands : List (Expr Float (some k))}
    {phrases : List (List Token × Tree)} (same : args.map Prod.snd = phrases.map Prod.snd)
    (derived : ∀ phrase ∈ phrases, Derives .or phrase.1 phrase.2)
    (narrowed : args.mapM (fun arg => operand k arg.1 arg.2) = .ok operands) :
    ∃ parts : List (Part k), parts.map Part.tokens = phrases.map Prod.fst ∧
      parts.map Part.operand = operands ∧ ∀ part ∈ parts, Derives .or part.tokens part.tree := by
  induction phrases generalizing args operands with
  | nil =>
      obtain rfl : args = [] := List.map_eq_nil_iff.1 same
      cases narrowed
      exact ⟨[], rfl, rfl, by simp⟩
  | cons phrase phrases ih =>
      match args, same with
      | arg :: args, same =>
          rw [List.map_cons, List.map_cons, List.cons.injEq] at same
          simp only [List.mapM_cons, bind_eq_ok, operand_eq_ok_iff] at narrowed
          obtain ⟨e, serves, operands, rest, same'⟩ := narrowed
          cases same'
          obtain ⟨parts, tokens, rfl, derived'⟩ :=
            ih same.2 (fun other isIn => derived other (List.mem_cons_of_mem _ isIn)) rest
          refine ⟨⟨phrase.1, phrase.2, e, same.1 ▸ serves⟩ :: parts, ?_, rfl, ?_⟩
          · rw [List.map_cons, List.map_cons, tokens]
          · intro other isIn
            rcases List.mem_cons.1 isIn with rfl | isIn
            · exact derived phrase List.mem_cons_self
            · exact derived' other isIn

theorem arguments_sound {whole : Parser} (sound : Sound .or whole) {c after : Cursor Token}
    {args : List (Nat × Tree)} (read : arguments whole c = .ok (args, after)) :
    args = [] ∨ ∃ phrases : List (List Token × Tree), phrases ≠ [] ∧
      Cursor.Reads
        (.leftParen :: ([Token.comma].intercalate (phrases.map Prod.fst) ++ [.rightParen]))
        c after ∧
      (∀ phrase ∈ phrases, Derives .or phrase.1 phrase.2) ∧
      args.map Prod.snd = phrases.map Prod.snd := by
  simp only [arguments, bind_eq_ok] at read
  obtain ⟨inside, readParen, readRest⟩ := read
  have paren := reads_of_expect readParen
  split at readRest
  · cases readRest
    exact Or.inl rfl
  · obtain ⟨phrases, several, reads, derived, same⟩ := moreArguments_sound sound readRest
    exact Or.inr ⟨phrases, several, paren.append reads, derived, same⟩

theorem call_sound {whole : Parser} (sound : Sound .or whole) {function : Function}
    {position : Nat} {c after : Cursor Token} {args : List (Nat × Tree)}
    {e : Expr Float (some .number)} (read : arguments whole c = .ok (args, after))
    (called : call function position args = .ok e) :
    ∃ run, Cursor.Reads run c after ∧ Derives .primary (.function function :: run) (.typed e) := by
  rcases arguments_sound sound read with rfl | ⟨phrases, several, reads, derived, same⟩
  · cases function <;> cases called
  · refine ⟨_, reads, ?_⟩
    cases function with
    | fold op =>
        have given : args ≠ [] := by
          rintro rfl
          exact several (List.map_eq_nil_iff.1 same.symm)
        match args, given with
        | arg :: args, _ =>
            simp only [call, bind_eq_ok] at called
            obtain ⟨operands, narrowed, same'⟩ := called
            cases same'
            obtain ⟨parts, tokens, rfl, derived'⟩ := parts_of_mapM same derived narrowed
            rw [← tokens]
            refine .fold ?_ derived'
            rintro rfl
            exact several (List.map_eq_nil_iff.1 tokens.symm)
    | length =>
        match args with
        | [] => cases called
        | [(start, tree)] =>
            simp only [call, bind_eq_ok, operand_eq_ok_iff] at called
            obtain ⟨array, serves, same'⟩ := called
            cases same'
            obtain ⟨phrase, rfl, rfl⟩ := List.map_eq_singleton_iff.1 same.symm
            let arg : Part .array := ⟨phrase.1, phrase.2, array, serves⟩
            have whole : Derives .primary
                (.function .length :: .leftParen :: (arg.tokens ++ [.rightParen]))
                (.typed (.length arg.operand)) :=
              .length (derived phrase List.mem_cons_self)
            rw [List.map_singleton, List.intercalate_singleton]
            exact whole
        | _ :: _ :: _ => cases called

theorem unary_sound (bound : Nat) : Sound .unary (unary bound) := by
  induction bound with
  | zero =>
      intro c after e read
      cases read
  | succ bound ih =>
      intro c after e read
      simp only [Expr.unary] at read
      split at read
      · cases read
      · rename_i isFirst
        simp only [bind_eq_ok, Prod.exists, operand_eq_ok_iff] at read
        obtain ⟨tree, between, readPhrase, e, serves, same⟩ := read
        cases same
        obtain ⟨tokens, reads, phrase⟩ := ih readPhrase
        let part : Part .number := ⟨tokens, tree, e, serves⟩
        have whole : Derives .unary (.minus :: part.tokens) (.typed (.negate part.operand)) :=
          .negate phrase
        exact ⟨_, (Cursor.reads_advance_of_peek? isFirst).append reads, whole⟩
      · rename_i isFirst
        simp only [bind_eq_ok, Prod.exists, operand_eq_ok_iff] at read
        obtain ⟨tree, between, readPhrase, e, serves, same⟩ := read
        cases same
        obtain ⟨tokens, reads, phrase⟩ := ih readPhrase
        let part : Part .boolean := ⟨tokens, tree, e, serves⟩
        have whole : Derives .unary (.not :: part.tokens) (.typed (.not part.operand)) :=
          .not phrase
        exact ⟨_, (Cursor.reads_advance_of_peek? isFirst).append reads, whole⟩
      · rename_i x isFirst
        cases read
        exact ⟨_, Cursor.reads_advance_of_peek? isFirst, .tighter rfl (.number x)⟩
      · rename_i b isFirst
        cases read
        exact ⟨_, Cursor.reads_advance_of_peek? isFirst, .tighter rfl (.boolean b)⟩
      · rename_i s isFirst
        cases read
        exact ⟨_, Cursor.reads_advance_of_peek? isFirst, .tighter rfl (.string s)⟩
      · rename_i p isFirst
        split at read
        · rename_i isOtherwise
          simp only [bind_eq_ok, Prod.exists] at read
          obtain ⟨d, final, readDefault, same⟩ := read
          cases same
          obtain ⟨tokens, reads, phrase⟩ := ih readDefault
          have mark := Cursor.reads_advance_of_peek? isOtherwise
          exact ⟨_, ((Cursor.reads_advance_of_peek? isFirst).append mark).append reads,
            .tighter rfl (.withDefault p phrase)⟩
        · cases read
          exact ⟨_, Cursor.reads_advance_of_peek? isFirst, .tighter rfl (.path p)⟩
      · rename_i isFirst
        simp only [bind_eq_ok, Prod.exists] at read
        obtain ⟨e, between, readInside, final, readParen, same⟩ := read
        cases same
        obtain ⟨tokens, reads, phrase⟩ := expression_sound ih readInside
        have closing := reads.append (reads_of_expect readParen)
        exact ⟨_, (Cursor.reads_advance_of_peek? isFirst).append closing,
          .tighter rfl (.parens phrase)⟩
      · rename_i function isFirst
        simp only [bind_eq_ok, Prod.exists] at read
        obtain ⟨args, between, readArgs, e, called, same⟩ := read
        cases same
        obtain ⟨run, reads, phrase⟩ := call_sound (expression_sound ih) readArgs called
        exact ⟨_, (Cursor.reads_advance_of_peek? isFirst).append reads, .tighter rfl phrase⟩
      · cases read

theorem derives_of_ofTokens {tokens : List Token} {e : Tree} (read : ofTokens tokens = .ok e) :
    Derives .or tokens e := by
  simp only [ofTokens, bind_eq_ok, Prod.exists] at read
  obtain ⟨tree, after, readPhrase, atEnd⟩ := read
  split at atEnd
  · rename_i noToken
    cases atEnd
    obtain ⟨run, ⟨rest, -⟩, phrase⟩ := expression_sound (unary_sound _) readPhrase
    have empty : after.rest = [] := List.head?_eq_none_iff.1 noToken
    rw [empty, List.append_nil] at rest
    have all : tokens = run := rest
    rw [all]
    exact phrase
  · cases atEnd

end PathExpr.Expr
