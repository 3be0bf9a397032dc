import PathExpr.Proofs.Grammar.Sound

set_option autoImplicit false

namespace PathExpr.Expr

/-- The level of the operator that a token is behind an operand, if it is one there. -/
def joint? : Token → Option Level
  | .logical op _ => some (.ofLogical op)
  | .equal => some .equality
  | .comparison _ => some .comparison
  | .plus => some .sum
  | .minus => some .sum
  | .number x => if Double.isNegative x then some .sum else none
  | .star => some .product
  | .slash => some .product
  | .otherwise => some .primary
  | _ => none

/-- Tighter levels are higher. A default ends where a phrase with a sign does, so the two tightest
levels are equal. -/
def Level.rank : Level → Nat
  | or => 0
  | and => 1
  | equality => 2
  | comparison => 3
  | sum => 4
  | product => 5
  | unary => 6
  | primary => 6

theorem Level.rank_of_tighter? {level next : Level} (isNext : level.tighter? = some next) :
    level.rank ≤ next.rank := by
  cases level <;> cases isNext <;> decide

/-- Whatever begins with these tokens does not go on with a phrase of the level. -/
def Stops (level : Level) (rest : List Token) : Prop :=
  ∀ token ∈ rest.head?, ∀ joint ∈ joint? token, joint.rank < level.rank

theorem Stops.tighter {level next : Level} {rest : List Token} (stops : Stops level rest)
    (higher : level.rank ≤ next.rank) : Stops next rest := by
  intro token isFirst joint isJoint
  exact Nat.lt_of_lt_of_le (stops token isFirst joint isJoint) higher

theorem stops_cons {level joint : Level} {token : Token} {rest : List Token}
    (isJoint : joint? token = some joint) (lower : joint.rank < level.rank) :
    Stops level (token :: rest) := by
  intro token' isFirst joint' isJoint'
  cases isFirst
  rw [isJoint] at isJoint'
  cases isJoint'
  exact lower

theorem stops_of_joint?_eq_none {level : Level} {token : Token} {rest : List Token}
    (noJoint : joint? token = none) : Stops level (token :: rest) := by
  intro token' isFirst joint isJoint
  cases isFirst
  rw [noJoint] at isJoint
  cases isJoint

theorem stops_nil (level : Level) : Stops level [] := by
  intro token isFirst
  cases isFirst

theorem Stops.peek?_ne {level joint : Level} {rest : List Token} {position : Nat} {token : Token}
    (stops : Stops level rest) (isJoint : joint? token = some joint)
    (higher : level.rank ≤ joint.rank) : (Cursor.mk rest position).peek? ≠ some token := by
  intro isFirst
  exact absurd (stops token isFirst joint isJoint) (Nat.not_lt.2 higher)

def reader (unary : Parser) : Level → Parser
  | .or => junction .or (junction .and (equality unary))
  | .and => junction .and (equality unary)
  | .equality => equality unary
  | .comparison => relational unary
  | .sum => additive unary
  | .product => multiplicative unary
  | .unary => unary
  | .primary => unary

theorem Stops.isFactorSign_eq_false {rest : List Token} {position : Nat}
    (stops : Stops .product rest) :
    isFactorSign (Cursor.mk rest position).peek? = false := by
  rw [Bool.eq_false_iff, ne_eq, isFactorSign_iff]
  rintro ⟨direction, isFirst⟩
  cases direction with
  | along => exact stops.peek?_ne rfl (by decide) isFirst
  | against => exact stops.peek?_ne rfl (by decide) isFirst

theorem Stops.termSign?_eq_none {rest : List Token} {position : Nat} (stops : Stops .sum rest) :
    (Cursor.mk rest position).peek?.bind termSign? = none := by
  rw [Option.bind_eq_none_iff]
  intro token isFirst
  cases token with
  | plus => exact absurd isFirst (stops.peek?_ne rfl (by decide))
  | minus => exact absurd isFirst (stops.peek?_ne rfl (by decide))
  | number x =>
      have positive : ¬ Double.isNegative x = true := by
        intro isNegative
        exact absurd isFirst (stops.peek?_ne (if_pos isNegative) (by decide))
      exact if_neg positive
  | _ => rfl

theorem Stops.comparison?_eq_none {rest : List Token} {position : Nat}
    (stops : Stops .comparison rest) :
    (Cursor.mk rest position).peek?.bind comparison? = none := by
  rw [Option.bind_eq_none_iff]
  intro token isFirst
  cases token with
  | comparison op => exact absurd isFirst (stops.peek?_ne rfl (by decide))
  | _ => rfl

theorem Stops.isLogical_eq_false {op : Logical} {rest : List Token} {position : Nat}
    (stops : Stops (.ofLogical op) rest) :
    isLogical op (Cursor.mk rest position).peek? = false := by
  rw [Bool.eq_false_iff, ne_eq, isLogical_iff]
  rintro ⟨spelling, isFirst⟩
  exact stops.peek?_ne rfl (Nat.le_refl _) isFirst

theorem junction_of_stops {op : Logical} {part : Parser} {c after : Cursor Token} {e : Tree}
    (stops : Stops (.ofLogical op) after.rest) (read : part c = .ok (e, after)) :
    junction op part c = .ok (e, after) := by
  simp only [junction, bind_eq_ok, Prod.exists]
  refine ⟨e, after, read, ?_⟩
  rw [if_neg (Bool.eq_false_iff.1 stops.isLogical_eq_false)]
  rfl

/-- A phrase of the next tighter level is read the same, if no operator of the level follows. -/
theorem reader_of_tighter {unary : Parser} {level next : Level}
    (isNext : level.tighter? = some next) {c after : Cursor Token} {e : Tree}
    (stops : Stops level after.rest) (read : reader unary next c = .ok (e, after)) :
    reader unary level c = .ok (e, after) := by
  cases level with
  | or =>
      cases isNext
      exact @junction_of_stops .or _ _ _ _ stops read
  | and =>
      cases isNext
      exact @junction_of_stops .and _ _ _ _ stops read
  | equality =>
      cases isNext
      simp only [reader, equality, bind_eq_ok, Prod.exists]
      refine ⟨e, after, read, ?_⟩
      rw [if_neg (stops.peek?_ne rfl (Nat.le_refl _))]
      rfl
  | comparison =>
      cases isNext
      simp only [reader, relational, bind_eq_ok, Prod.exists]
      refine ⟨e, after, read, ?_⟩
      rw [stops.comparison?_eq_none]
      rfl
  | sum =>
      cases isNext
      simp only [reader, additive, bind_eq_ok, Prod.exists]
      refine ⟨e, after, read, ?_⟩
      rw [stops.termSign?_eq_none]
      rfl
  | product =>
      cases isNext
      simp only [reader, multiplicative, bind_eq_ok, Prod.exists]
      refine ⟨e, after, read, ?_⟩
      rw [factorsAfter, if_neg (Bool.eq_false_iff.1 stops.isFactorSign_eq_false)]
  | unary =>
      cases isNext
      exact read
  | primary => cases isNext

/-- The tokens are read as the tree wherever they stand before something that does not go on with
them. -/
def IsRead (level : Level) (tokens : List Token) (e : Tree) : Prop :=
  ∀ (bound position : Nat) (rest : List Token), (tokens ++ rest).length ≤ bound →
    Stops level rest →
    reader (unary bound) level ⟨tokens ++ rest, position⟩ =
      .ok (e, ⟨rest, position + tokens.length⟩)

theorem Written.stops {op : Associative} {direction : Direction} {phrase written : List Token}
    (isWritten : Written op direction phrase written) {level : Level}
    (higher : (Level.ofAssociative op).rank < level.rank) (tail : List Token) :
    Stops level (written ++ tail) := by
  cases isWritten with
  | plus => exact stops_cons rfl higher
  | minus => exact stops_cons rfl higher
  | negative _ isNegative => exact stops_cons (if_pos isNegative) higher
  | star => exact stops_cons rfl higher
  | slash => exact stops_cons rfl higher

/-- A term or factor ends where the next one begins. -/
theorem stops_further {op : Associative} (rest : List (Further op)) {tail : List Token}
    (stops : Stops (.ofAssociative op) tail) :
    Stops (.belowAssociative op) (rest.flatMap Further.written ++ tail) := by
  have higher : (Level.ofAssociative op).rank < (Level.belowAssociative op).rank := by
    cases op <;> decide
  cases rest with
  | nil => exact stops.tighter (Nat.le_of_lt higher)
  | cons next rest =>
      rw [List.flatMap_cons, List.append_assoc]
      exact next.isWritten.stops higher _

theorem Written.eq_factorSign_cons {direction : Direction} {phrase written : List Token}
    (isWritten : Written .product direction phrase written) :
    written = direction.factorSign :: phrase := by
  cases isWritten <;> rfl

theorem Written.length_pos {op : Associative} {direction : Direction}
    {phrase written : List Token} (isWritten : Written op direction phrase written) :
    0 < written.length := by
  cases isWritten <;> exact Nat.succ_pos _

/-- The loops that read operands one by one have as many rounds as they need. -/
theorem length_le_length_written {op : Associative} (rest : List (Further op)) :
    rest.length ≤ (rest.flatMap Further.written).length := by
  induction rest with
  | nil => exact Nat.le_refl 0
  | cons next rest ih =>
      have some := next.isWritten.length_pos
      rw [List.flatMap_cons, List.length_append, List.length_cons]
      omega

theorem factors_of_further {bound : Nat} {next : Further .product}
    (isRead : IsRead .unary next.part.tokens next.part.tree) {behind : List Token}
    (stops : Stops .unary behind) (steps position : Nat) (run : List (Expr Float (some .number)))
    (within : (next.written ++ behind).length ≤ bound) :
    factors (unary bound) (steps + 1) run ⟨next.written ++ behind, position⟩ =
      factors (unary bound) steps (extended .product run next.step)
        ⟨behind, position + next.written.length⟩ := by
  rw [next.isWritten.eq_factorSign_cons, List.cons_append] at within ⊢
  have read : unary bound ⟨next.part.tokens ++ behind, position + 1⟩ =
      .ok (next.part.tree, ⟨behind, position + 1 + next.part.tokens.length⟩) :=
    isRead bound (position + 1) behind (Nat.le_of_succ_le within) stops
  have narrowed : operand .number (position + 1) next.part.tree = .ok next.part.operand :=
    operand_eq_ok_iff.2 next.part.serves
  have isSign : (Cursor.mk (next.direction.factorSign :: (next.part.tokens ++ behind))
      position).peek? = some next.direction.factorSign := rfl
  have positions : position + (next.direction.factorSign :: next.part.tokens).length =
      position + 1 + next.part.tokens.length := by
    rw [List.length_cons]
    omega
  rw [factors_of_sign isSign, positions]
  simp only [Cursor.advance_cons, read, narrowed, bind, Except.bind, Further.step]

/-- A product that begins with a number is read like the rest of it behind the number. -/
theorem multiplicative_number {bound position : Nat} {x : Float} {rest : List Token}
    (within : 0 < bound) :
    multiplicative (unary bound) ⟨.number x :: rest, position⟩ =
      factorsAfter (unary bound) position (.typed (.number x)) ⟨rest, position + 1⟩ := by
  cases bound with
  | zero => cases within
  | succ bound => rfl

/-- A further term is read behind its sign, whichever of the two ways the sign is written. -/
theorem term_isRead {bound : Nat} {next : Further .sum}
    (isRead : IsRead .product next.part.tokens next.part.tree) {behind : List Token}
    (stops : Stops .product behind) (position : Nat)
    (within : (next.written ++ behind).length ≤ bound) :
    ∃ sign : TermSign,
      (Cursor.mk (next.written ++ behind) position).peek?.bind termSign? = some sign ∧
      sign.direction = next.direction ∧
      term (unary bound) sign ⟨next.written ++ behind, position⟩ =
        .ok (next.part.operand, ⟨behind, position + next.written.length⟩) := by
  obtain ⟨direction, ⟨tokens, tree, e, serves⟩, written, isWritten⟩ := next
  dsimp only at isRead isWritten within ⊢
  cases isWritten with
  | plus =>
      rw [List.cons_append, List.length_cons] at within
      have read := isRead bound (position + 1) behind (Nat.le_of_succ_le within) stops
      refine ⟨.plus, rfl, rfl, ?_⟩
      simp only [term, bind_eq_ok, Prod.exists, operand_eq_ok_iff]
      refine ⟨tree, _, read, e, serves, ?_⟩
      rw [List.length_cons, Nat.add_assoc, Nat.add_comm 1]
      rfl
  | minus =>
      rw [List.cons_append, List.length_cons] at within
      have read := isRead bound (position + 1) behind (Nat.le_of_succ_le within) stops
      refine ⟨.minus, rfl, rfl, ?_⟩
      simp only [term, bind_eq_ok, Prod.exists, operand_eq_ok_iff]
      refine ⟨tree, _, read, e, serves, ?_⟩
      rw [List.length_cons, Nat.add_assoc, Nat.add_comm 1]
      rfl
  | negative rest isNegative =>
      have read := isRead bound position behind within stops
      have some : 0 < bound := Nat.lt_of_lt_of_le (Nat.succ_pos _) within
      rw [reader, List.cons_append, multiplicative_number some] at read
      refine ⟨_, if_pos isNegative, rfl, ?_⟩
      simp only [term, bind_eq_ok, Prod.exists, operand_eq_ok_iff]
      exact ⟨tree, _, read, e, serves, rfl⟩

theorem terms_of_further {bound : Nat} {next : Further .sum}
    (isRead : IsRead .product next.part.tokens next.part.tree) {behind : List Token}
    (stops : Stops .product behind) (steps position : Nat)
    (run : List (Expr Float (some .number))) (within : (next.written ++ behind).length ≤ bound) :
    terms (unary bound) (steps + 1) run ⟨next.written ++ behind, position⟩ =
      terms (unary bound) steps (extended .sum run next.step)
        ⟨behind, position + next.written.length⟩ := by
  obtain ⟨sign, isSign, direction, read⟩ := term_isRead isRead stops position within
  rw [terms_of_sign isSign, read, direction]
  rfl

def furtherOperands (unary : Parser) :
    Associative → Nat → List (Expr Float (some .number)) → Cursor Token →
      Except Fault (Parsed (Expr Float (some .number)))
  | .sum => terms unary
  | .product => factors unary

theorem furtherOperands_of_stops {op : Associative} {unary : Parser} (steps : Nat)
    (run : List (Expr Float (some .number))) {tail : List Token} {position : Nat}
    (stops : Stops (.ofAssociative op) tail) :
    furtherOperands unary op steps run ⟨tail, position⟩ =
      .ok (ofRun op run, ⟨tail, position⟩) := by
  cases op with
  | sum =>
      cases steps with
      | zero => rfl
      | succ steps => rw [furtherOperands, terms, stops.termSign?_eq_none]
  | product =>
      cases steps with
      | zero => rfl
      | succ steps =>
          rw [furtherOperands, factors, if_neg (Bool.eq_false_iff.1 stops.isFactorSign_eq_false)]

theorem furtherOperands_isRead {op : Associative} {bound : Nat} {rest : List (Further op)}
    (isRead : ∀ next ∈ rest, IsRead (.belowAssociative op) next.part.tokens next.part.tree)
    {tail : List Token} (stops : Stops (.ofAssociative op) tail) {steps position : Nat}
    {run : List (Expr Float (some .number))} (begun : run ≠ []) (enough : rest.length ≤ steps)
    (within : (rest.flatMap Further.written ++ tail).length ≤ bound) :
    furtherOperands (unary bound) op steps run ⟨rest.flatMap Further.written ++ tail, position⟩ =
      .ok (joinedFrom op run (rest.map Further.step),
        ⟨tail, position + (rest.flatMap Further.written).length⟩) := by
  induction rest generalizing steps run position with
  | nil =>
      rw [List.map_nil, ← ofRun_eq_joinedFrom]
      exact furtherOperands_of_stops steps run stops
  | cons next rest ih =>
      cases steps with
      | zero => cases enough
      | succ steps =>
          have isRead' : ∀ other ∈ rest,
              IsRead (.belowAssociative op) other.part.tokens other.part.tree :=
            fun other isIn => isRead other (List.mem_cons_of_mem next isIn)
          have enough' : rest.length ≤ steps := Nat.le_of_succ_le_succ enough
          rw [List.flatMap_cons, List.append_assoc] at within ⊢
          have within' : (rest.flatMap Further.written ++ tail).length ≤ bound := by
            rw [List.length_append] at within
            omega
          have step : furtherOperands (unary bound) op (steps + 1) run
                ⟨next.written ++ (rest.flatMap Further.written ++ tail), position⟩ =
              furtherOperands (unary bound) op steps (extended op run next.step)
                ⟨rest.flatMap Further.written ++ tail, position + next.written.length⟩ := by
            have isNext := isRead next List.mem_cons_self
            cases op with
            | sum => exact terms_of_further isNext (stops_further rest stops) _ _ _ within
            | product => exact factors_of_further isNext (stops_further rest stops) _ _ _ within
          rw [step, ih isRead' (extended_ne_nil op run next.step) enough' within', List.map_cons,
            joinedFrom_cons op begun, List.length_append, Nat.add_assoc]

theorem isFactorSign_of_further {rest : List (Further .product)} (several : rest ≠ [])
    (tail : List Token) (position : Nat) :
    isFactorSign (Cursor.mk (rest.flatMap Further.written ++ tail) position).peek? = true := by
  obtain ⟨next, rest', rfl⟩ := List.exists_cons_of_ne_nil several
  rw [List.flatMap_cons, next.isWritten.eq_factorSign_cons]
  exact isFactorSign_iff.2 ⟨next.direction, rfl⟩

theorem termSign?_of_further {rest : List (Further .sum)} (several : rest ≠ [])
    (tail : List Token) (position : Nat) :
    ∃ sign, (Cursor.mk (rest.flatMap Further.written ++ tail) position).peek?.bind termSign? =
      some sign := by
  obtain ⟨next, rest', rfl⟩ := List.exists_cons_of_ne_nil several
  rw [List.flatMap_cons, List.append_assoc]
  obtain ⟨direction, ⟨tokens, tree, e, serves⟩, written, isWritten⟩ := next
  cases isWritten with
  | plus => exact ⟨.plus, rfl⟩
  | minus => exact ⟨.minus, rfl⟩
  | negative rest isNegative => exact ⟨_, if_pos isNegative⟩

theorem chain_isRead {op : Associative} {first : Part .number} {rest : List (Further op)}
    (several : rest ≠ []) (isFirst : IsRead (.belowAssociative op) first.tokens first.tree)
    (isRead : ∀ next ∈ rest, IsRead (.belowAssociative op) next.part.tokens next.part.tree) :
    IsRead (.ofAssociative op) (first.tokens ++ rest.flatMap Further.written)
      (.typed (joined op first.operand (rest.map Further.step))) := by
  intro bound position tail within stops
  rw [List.append_assoc] at within ⊢
  have within' : (rest.flatMap Further.written ++ tail).length ≤ bound := by
    rw [List.length_append] at within
    omega
  have enough : rest.length ≤ (rest.flatMap Further.written ++ tail).length := by
    rw [List.length_append]
    exact Nat.le_add_right_of_le (length_le_length_written rest)
  have readFirst := isFirst bound position _ within (stops_further rest stops)
  have read := @furtherOperands_isRead op bound rest isRead tail stops _
    (position + first.tokens.length) _ (List.cons_ne_nil first.operand []) enough within'
  rw [List.length_append, ← Nat.add_assoc]
  cases op with
  | sum =>
      simp only [reader, Level.ofAssociative, additive, bind_eq_ok, Prod.exists]
      refine ⟨_, _, readFirst, ?_⟩
      obtain ⟨sign, isSign⟩ :=
        termSign?_of_further several tail (position + first.tokens.length)
      rw [isSign]
      simp only [bind_eq_ok, Prod.exists, operand_eq_ok_iff]
      exact ⟨first.operand, first.serves, _, _, read, rfl⟩
  | product =>
      simp only [reader, Level.ofAssociative, multiplicative, bind_eq_ok, Prod.exists]
      refine ⟨_, _, readFirst, ?_⟩
      have isSign := isFactorSign_of_further several tail (position + first.tokens.length)
      simp only [factorsAfter, if_pos isSign, bind_eq_ok, Prod.exists, operand_eq_ok_iff]
      exact ⟨first.operand, first.serves, _, _, read, rfl⟩

theorem compare_isRead {op : Comparison} {left right : Part .number}
    (isLeft : IsRead .sum left.tokens left.tree) (isRight : IsRead .sum right.tokens right.tree) :
    IsRead .comparison (left.tokens ++ .comparison op :: right.tokens)
      (.typed (.compare op left.operand right.operand)) := by
  intro bound position tail within stops
  rw [List.append_assoc, List.cons_append] at within ⊢
  have within' : (right.tokens ++ tail).length ≤ bound := by
    rw [List.length_append, List.length_cons] at within
    omega
  have readLeft := isLeft bound position _ within (stops_cons rfl (by decide))
  have readRight := isRight bound (position + left.tokens.length + 1) tail within'
    (stops.tighter (by decide))
  have positions : position + left.tokens.length + 1 + right.tokens.length =
      position + (left.tokens ++ .comparison op :: right.tokens).length := by
    rw [List.length_append, List.length_cons]
    omega
  rw [positions] at readRight
  simp only [reader, relational, bind_eq_ok, Prod.exists]
  refine ⟨_, _, readLeft, ?_⟩
  simp only [Cursor.peek?, List.head?_cons, Option.bind_some, comparison?, bind_eq_ok, Prod.exists,
    operand_eq_ok_iff]
  exact ⟨_, left.serves, _, _, readRight, _, right.serves, rfl⟩

theorem equal_isRead {left right : List Token} {l r : Tree} (isLeft : IsRead .comparison left l)
    (isRight : IsRead .comparison right r) :
    IsRead .equality (left ++ .equal :: right) (.typed (.equal l r)) := by
  intro bound position tail within stops
  rw [List.append_assoc, List.cons_append] at within ⊢
  have within' : (right ++ tail).length ≤ bound := by
    rw [List.length_append, List.length_cons] at within
    omega
  have readLeft := isLeft bound position _ within (stops_cons rfl (by decide))
  have readRight := isRight bound (position + left.length + 1) tail within'
    (stops.tighter (by decide))
  have positions : position + left.length + 1 + right.length =
      position + (left ++ .equal :: right).length := by
    rw [List.length_append, List.length_cons]
    omega
  rw [positions] at readRight
  simp only [reader, equality, bind_eq_ok, Prod.exists]
  refine ⟨_, _, readLeft, ?_⟩
  simp only [Cursor.peek?, List.head?_cons, ↓reduceIte, bind_eq_ok, Prod.exists]
  exact ⟨_, _, readRight, rfl⟩

def junctionTokens (op : Logical) (rest : List (Spelling × Part .boolean)) : List Token :=
  rest.flatMap fun next => .logical op next.1 :: next.2.tokens

theorem length_le_length_junctionTokens (op : Logical) (rest : List (Spelling × Part .boolean)) :
    rest.length ≤ (junctionTokens op rest).length := by
  induction rest with
  | nil => exact Nat.le_refl 0
  | cons next rest ih =>
      simp only [junctionTokens, List.flatMap_cons, List.length_append, List.length_cons] at ih ⊢
      omega

/-- An operand of a logical operator ends where the next one begins. -/
theorem stops_junction {op : Logical} (rest : List (Spelling × Part .boolean))
    {tail : List Token} (stops : Stops (.ofLogical op) tail) :
    Stops (.belowLogical op) (junctionTokens op rest ++ tail) := by
  have higher : (Level.ofLogical op).rank < (Level.belowLogical op).rank := by
    cases op <;> decide
  cases rest with
  | nil => exact stops.tighter (Nat.le_of_lt higher)
  | cons next rest => exact stops_cons rfl higher

theorem moreOperands_isRead {op : Logical} {bound : Nat} {rest : List (Spelling × Part .boolean)}
    (isRead : ∀ next ∈ rest, IsRead (.belowLogical op) next.2.tokens next.2.tree)
    {tail : List Token} (stops : Stops (.ofLogical op) tail) {steps position : Nat}
    (enough : rest.length ≤ steps) (within : (junctionTokens op rest ++ tail).length ≤ bound) :
    moreOperands op (reader (unary bound) (.belowLogical op)) steps
        ⟨junctionTokens op rest ++ tail, position⟩ =
      .ok (rest.map fun next => next.2.operand,
        ⟨tail, position + (junctionTokens op rest).length⟩) := by
  induction rest generalizing steps position with
  | nil =>
      cases steps with
      | zero => rfl
      | succ steps =>
          have noOperator := @Stops.isLogical_eq_false op tail position stops
          simp only [junctionTokens, List.flatMap_nil, List.nil_append, moreOperands]
          rw [if_neg (Bool.eq_false_iff.1 noOperator)]
          rfl
  | cons next rest ih =>
      cases steps with
      | zero => cases enough
      | succ steps =>
          have isRead' : ∀ other ∈ rest, IsRead (.belowLogical op) other.2.tokens other.2.tree :=
            fun other isIn => isRead other (List.mem_cons_of_mem next isIn)
          have tokens : junctionTokens op (next :: rest) =
            .logical op next.1 :: (next.2.tokens ++ junctionTokens op rest) := rfl
          rw [tokens, List.cons_append, List.append_assoc] at within ⊢
          have within' : (next.2.tokens ++ (junctionTokens op rest ++ tail)).length ≤ bound :=
            Nat.le_of_succ_le within
          have within'' : (junctionTokens op rest ++ tail).length ≤ bound := by
            rw [List.length_append] at within'
            omega
          have read := isRead next List.mem_cons_self bound (position + 1) _ within'
            (stops_junction rest stops)
          have readRest := @ih isRead' steps (position + 1 + next.2.tokens.length)
            (Nat.le_of_succ_le_succ enough) within''
          have positions : position + 1 + next.2.tokens.length + (junctionTokens op rest).length =
              position +
                (Token.logical op next.1 :: (next.2.tokens ++ junctionTokens op rest)).length := by
            rw [List.length_cons, List.length_append]
            omega
          have isOperator : isLogical op (some (.logical op next.1)) = true :=
            isLogical_iff.2 ⟨next.1, rfl⟩
          rw [positions] at readRest
          rw [moreOperands, Cursor.peek?, List.head?_cons, if_pos isOperator]
          simp only [bind_eq_ok, Prod.exists, operand_eq_ok_iff]
          exact ⟨_, _, read, _, next.2.serves, _, _, readRest, rfl⟩

theorem logic_isRead {op : Logical} {first : Part .boolean}
    {rest : List (Spelling × Part .boolean)} (several : rest ≠ [])
    (isFirst : IsRead (.belowLogical op) first.tokens first.tree)
    (isRead : ∀ next ∈ rest, IsRead (.belowLogical op) next.2.tokens next.2.tree) :
    IsRead (.ofLogical op) (first.tokens ++ junctionTokens op rest)
      (.typed (.logic op (first.operand :: rest.map fun next => next.2.operand))) := by
  intro bound position tail within stops
  rw [List.append_assoc] at within ⊢
  have within' : (junctionTokens op rest ++ tail).length ≤ bound := by
    rw [List.length_append] at within
    omega
  have enough : rest.length ≤ (junctionTokens op rest ++ tail).length := by
    rw [List.length_append]
    exact Nat.le_add_right_of_le (length_le_length_junctionTokens op rest)
  have readFirst := isFirst bound position _ within (stops_junction rest stops)
  have readRest := @moreOperands_isRead op bound rest isRead tail stops _
    (position + first.tokens.length) enough within'
  have isOperator : isLogical op (Cursor.mk (junctionTokens op rest ++ tail)
      (position + first.tokens.length)).peek? = true := by
    obtain ⟨next, rest', rfl⟩ := List.exists_cons_of_ne_nil several
    exact isLogical_iff.2 ⟨next.1, rfl⟩
  rw [Nat.add_assoc, ← List.length_append] at readRest
  have isJunction : reader (unary bound) (.ofLogical op) =
      junction op (reader (unary bound) (.belowLogical op)) := by
    cases op <;> rfl
  simp only [isJunction, junction, bind_eq_ok, Prod.exists]
  refine ⟨_, _, readFirst, ?_⟩
  simp only [if_pos isOperator, bind_eq_ok, Prod.exists, operand_eq_ok_iff]
  exact ⟨_, first.serves, _, _, readRest, rfl⟩

theorem operands_of_parts {k : Kind} {args : List (Nat × Tree)} {parts : List (Part k)}
    (same : args.map Prod.snd = parts.map Part.tree) :
    args.mapM (fun arg => operand k arg.1 arg.2) = .ok (parts.map Part.operand) := by
  induction parts generalizing args with
  | nil =>
      obtain rfl : args = [] := List.map_eq_nil_iff.1 same
      rfl
  | cons part parts ih =>
      match args, same with
      | arg :: args, same =>
          rw [List.map_cons, List.map_cons, List.cons.injEq] at same
          simp only [List.mapM_cons, bind_eq_ok, operand_eq_ok_iff]
          exact ⟨part.operand, same.1 ▸ part.serves, _, ih same.2, rfl⟩

theorem moreArguments_isRead {k : Kind} {bound : Nat} {parts : List (Part k)} (some : parts ≠ [])
    (isRead : ∀ part ∈ parts, IsRead .or part.tokens part.tree) {tail : List Token}
    {steps position : Nat} (enough : parts.length ≤ steps)
    (within : ([Token.comma].intercalate (parts.map Part.tokens) ++ .rightParen :: tail).length ≤
      bound) :
    ∃ args : List (Nat × Tree), args.map Prod.snd = parts.map Part.tree ∧
      moreArguments (reader (unary bound) .or) steps
          ⟨[Token.comma].intercalate (parts.map Part.tokens) ++ .rightParen :: tail, position⟩ =
        .ok (args, ⟨tail,
          position + ([Token.comma].intercalate (parts.map Part.tokens)).length + 1⟩) := by
  induction parts generalizing steps position with
  | nil => exact absurd rfl some
  | cons part parts ih =>
      cases steps with
      | zero => cases enough
      | succ steps =>
          have isFirst := isRead part List.mem_cons_self
          cases parts with
          | nil =>
              simp only [List.map_cons, List.map_nil, List.intercalate_singleton] at within ⊢
              have read := isFirst bound position _ within (stops_of_joint?_eq_none rfl)
              refine ⟨[(position, part.tree)], rfl, ?_⟩
              simp only [moreArguments, bind_eq_ok, Prod.exists]
              exact ⟨_, _, read, rfl⟩
          | cons part' parts =>
              have isRead' : ∀ other ∈ part' :: parts, IsRead .or other.tokens other.tree :=
                fun other isIn => isRead other (List.mem_cons_of_mem part isIn)
              have several : (part' :: parts).map Part.tokens ≠ [] := List.cons_ne_nil _ _
              have spelled : [Token.comma].intercalate ((part :: part' :: parts).map Part.tokens) =
                  part.tokens ++
                    .comma :: [Token.comma].intercalate ((part' :: parts).map Part.tokens) := by
                rw [List.map_cons, List.intercalate_cons_of_ne_nil several, List.append_assoc]
                rfl
              rw [spelled] at within ⊢
              generalize [Token.comma].intercalate ((part' :: parts).map Part.tokens) =
                inside at within ih ⊢
              rw [List.append_assoc, List.cons_append] at within ⊢
              have within' : (inside ++ .rightParen :: tail).length ≤ bound := by
                rw [List.length_append, List.length_cons] at within
                omega
              have read := isFirst bound position _ within (stops_of_joint?_eq_none rfl)
              obtain ⟨args, same, readRest⟩ :=
                @ih (List.cons_ne_nil _ _) isRead' steps (position + part.tokens.length + 1)
                  (Nat.le_of_succ_le_succ enough) within'
              have positions : position + part.tokens.length + 1 + inside.length + 1 =
                  position + (part.tokens ++ .comma :: inside).length + 1 := by
                rw [List.length_append, List.length_cons]
                omega
              refine ⟨(position, part.tree) :: args, ?_, ?_⟩
              · rw [List.map_cons, same, List.map_cons]
                rfl
              · rw [positions] at readRest
                simp only [moreArguments, bind_eq_ok, Prod.exists]
                refine ⟨_, _, read, ?_⟩
                simp only [Cursor.peek?, List.head?_cons, bind_eq_ok, Prod.exists]
                exact ⟨_, _, readRest, rfl⟩

theorem length_le_length_arguments {k : Kind} (parts : List (Part k)) :
    parts.length ≤ ([Token.comma].intercalate (parts.map Part.tokens)).length + 1 := by
  induction parts with
  | nil => exact Nat.zero_le _
  | cons part parts ih =>
      cases parts with
      | nil => exact Nat.le_add_left 1 _
      | cons part' parts =>
          simp only [List.map_cons, List.intercalate_cons_cons, List.length_append,
            List.length_cons, List.length_nil] at ih ⊢
          omega

/-- No phrase begins with a closing parenthesis. -/
theorem Derives.begins {level : Level} {tokens : List Token} {e : Tree}
    (phrase : Derives level tokens e) :
    ∃ first rest, tokens = first :: rest ∧ first ≠ .rightParen := by
  induction phrase with
  | tighter _ _ ih => exact ih
  | logic _ _ _ ih =>
      obtain ⟨first, rest, tokens, opens⟩ := ih
      exact ⟨first, _, by rw [tokens, List.cons_append], opens⟩
  | equal _ _ ih =>
      obtain ⟨first, rest, tokens, opens⟩ := ih
      exact ⟨first, _, by rw [tokens, List.cons_append], opens⟩
  | compare _ _ ih =>
      obtain ⟨first, rest, tokens, opens⟩ := ih
      exact ⟨first, _, by rw [tokens, List.cons_append], opens⟩
  | chain _ _ _ ih =>
      obtain ⟨first, rest, tokens, opens⟩ := ih
      exact ⟨first, _, by rw [tokens, List.cons_append], opens⟩
  | _ => exact ⟨_, _, rfl, by simp⟩

theorem peek?_arguments_ne {k : Kind} {parts : List (Part k)} (some : parts ≠ [])
    (phrases : ∀ part ∈ parts, Derives .or part.tokens part.tree) (tail : List Token)
    (position : Nat) :
    (Cursor.mk ([Token.comma].intercalate (parts.map Part.tokens) ++ tail) position).peek? ≠
      Option.some .rightParen := by
  obtain ⟨part, parts, rfl⟩ := List.exists_cons_of_ne_nil some
  obtain ⟨first, rest, tokens, opens⟩ := (phrases part List.mem_cons_self).begins
  have isFirst : (Cursor.mk
      ([Token.comma].intercalate ((part :: parts).map Part.tokens) ++ tail) position).peek? =
        Option.some first := by
    cases parts with
    | nil =>
        rw [List.map_singleton, List.intercalate_singleton, tokens]
        rfl
    | cons part' parts =>
        rw [List.map_cons, List.map_cons, List.intercalate_cons_cons, tokens]
        rfl
  rw [isFirst]
  exact fun same => opens (Option.some.inj same)

theorem arguments_isRead {k : Kind} {bound : Nat} {parts : List (Part k)} (some : parts ≠ [])
    (phrases : ∀ part ∈ parts, Derives .or part.tokens part.tree)
    (isRead : ∀ part ∈ parts, IsRead .or part.tokens part.tree) {tail : List Token}
    (position : Nat)
    (within : ([Token.comma].intercalate (parts.map Part.tokens) ++ .rightParen :: tail).length ≤
      bound) :
    ∃ args : List (Nat × Tree), args.map Prod.snd = parts.map Part.tree ∧
      arguments (reader (unary bound) .or)
          ⟨.leftParen ::
            ([Token.comma].intercalate (parts.map Part.tokens) ++ .rightParen :: tail), position⟩ =
        .ok (args, ⟨tail, position + 1 +
          ([Token.comma].intercalate (parts.map Part.tokens)).length + 1⟩) := by
  have enough : parts.length ≤
      ([Token.comma].intercalate (parts.map Part.tokens) ++ .rightParen :: tail).length := by
    have few := length_le_length_arguments parts
    rw [List.length_append, List.length_cons]
    omega
  obtain ⟨args, same, read⟩ :=
    @moreArguments_isRead k bound parts some isRead tail _ (position + 1) enough within
  refine ⟨args, same, ?_⟩
  simp only [arguments, bind_eq_ok]
  refine ⟨_, rfl, ?_⟩
  rw [Cursor.advance_cons, if_neg (peek?_arguments_ne some phrases _ _)]
  exact read

theorem negate_isRead {part : Part .number} (isRead : IsRead .unary part.tokens part.tree) :
    IsRead .unary (.minus :: part.tokens) (.typed (.negate part.operand)) := by
  intro bound position tail within stops
  cases bound with
  | zero => cases within
  | succ bound =>
      have read := isRead bound (position + 1) tail (Nat.le_of_succ_le_succ within) stops
      rw [Nat.add_assoc, Nat.add_comm 1] at read
      simp only [reader, unary, List.cons_append, Cursor.peek?, List.head?_cons, bind_eq_ok,
        Prod.exists, operand_eq_ok_iff]
      exact ⟨_, _, read, _, part.serves, rfl⟩

theorem not_isRead {part : Part .boolean} (isRead : IsRead .unary part.tokens part.tree) :
    IsRead .unary (.not :: part.tokens) (.typed (.not part.operand)) := by
  intro bound position tail within stops
  cases bound with
  | zero => cases within
  | succ bound =>
      have read := isRead bound (position + 1) tail (Nat.le_of_succ_le_succ within) stops
      rw [Nat.add_assoc, Nat.add_comm 1] at read
      simp only [reader, unary, List.cons_append, Cursor.peek?, List.head?_cons, bind_eq_ok,
        Prod.exists, operand_eq_ok_iff]
      exact ⟨_, _, read, _, part.serves, rfl⟩

theorem path_isRead (p : Path) : IsRead .primary [.path p] (.path p) := by
  intro bound position tail within stops
  cases bound with
  | zero => cases within
  | succ bound =>
      have noDefault : (Cursor.mk tail (position + 1)).peek? ≠ some .otherwise :=
        stops.peek?_ne rfl (by decide)
      simp only [reader, unary, List.cons_append, List.nil_append, Cursor.peek?, List.head?_cons,
        Cursor.advance_cons]
      exact if_neg noDefault

theorem withDefault_isRead (p : Path) {tokens : List Token} {d : Tree}
    (isRead : IsRead .unary tokens d) :
    IsRead .primary (.path p :: .otherwise :: tokens) (.withDefault p d) := by
  intro bound position tail within stops
  cases bound with
  | zero => cases within
  | succ bound =>
      have within' : (tokens ++ tail).length ≤ bound :=
        Nat.le_of_succ_le (Nat.le_of_succ_le_succ within)
      have read := isRead bound (position + 2) tail within' stops
      rw [Nat.add_assoc, Nat.add_comm 2] at read
      simp only [reader, unary, List.cons_append, Cursor.peek?, List.head?_cons,
        Cursor.advance_cons, ↓reduceIte, bind_eq_ok, Prod.exists]
      exact ⟨_, _, read, rfl⟩

theorem parens_isRead {tokens : List Token} {e : Tree} (isRead : IsRead .or tokens e) :
    IsRead .primary (.leftParen :: (tokens ++ [.rightParen])) e := by
  intro bound position tail within stops
  cases bound with
  | zero => cases within
  | succ bound =>
      rw [List.cons_append, List.append_assoc, List.cons_append, List.nil_append] at within ⊢
      have read := isRead bound (position + 1) _ (Nat.le_of_succ_le_succ within)
        (stops_of_joint?_eq_none rfl)
      have positions : position + 1 + tokens.length + 1 =
          position + (Token.leftParen :: (tokens ++ [.rightParen])).length := by
        rw [List.length_cons, List.length_append, List.length_singleton]
        omega
      simp only [reader, unary, Cursor.peek?, List.head?_cons, bind_eq_ok, Prod.exists]
      refine ⟨_, _, read, _, rfl, ?_⟩
      rw [← positions]
      rfl

theorem fold_isRead {op : Associative} {args : List (Part .number)} (several : args ≠ [])
    (phrases : ∀ arg ∈ args, Derives .or arg.tokens arg.tree)
    (isRead : ∀ arg ∈ args, IsRead .or arg.tokens arg.tree) :
    IsRead .primary
      (.function (.fold op) :: .leftParen ::
        ([Token.comma].intercalate (args.map Part.tokens) ++ [.rightParen]))
      (.typed (.chain op (args.map Part.operand))) := by
  intro bound position tail within stops
  cases bound with
  | zero => cases within
  | succ bound =>
      simp only [List.cons_append, List.append_assoc, List.nil_append] at within ⊢
      obtain ⟨found, same, read⟩ := arguments_isRead several phrases isRead (position + 1)
        (Nat.le_of_succ_le (Nat.le_of_succ_le_succ within))
      have called : call (.fold op) position found = .ok (.chain op (args.map Part.operand)) := by
        have narrowed := operands_of_parts same
        cases found with
        | nil => exact absurd (List.map_eq_nil_iff.1 same.symm) several
        | cons arg found =>
            simp only [call, bind_eq_ok]
            exact ⟨_, narrowed, rfl⟩
      have positions : position + 1 + 1 +
            ([Token.comma].intercalate (args.map Part.tokens)).length + 1 =
          position + (Token.function (.fold op) :: .leftParen ::
            ([Token.comma].intercalate (args.map Part.tokens) ++ [.rightParen])).length := by
        simp only [List.length_cons, List.length_append, List.length_nil]
        omega
      rw [positions] at read
      simp only [reader, unary, Cursor.peek?, List.head?_cons, bind_eq_ok, Prod.exists]
      exact ⟨_, _, read, _, called, rfl⟩

theorem length_isRead {arg : Part .array} (phrase : Derives .or arg.tokens arg.tree)
    (isRead : IsRead .or arg.tokens arg.tree) :
    IsRead .primary (.function .length :: .leftParen :: (arg.tokens ++ [.rightParen]))
      (.typed (.length arg.operand)) := by
  intro bound position tail within stops
  cases bound with
  | zero => cases within
  | succ bound =>
      have alone : [Token.comma].intercalate ([arg].map Part.tokens) = arg.tokens := by
        rw [List.map_singleton, List.intercalate_singleton]
      simp only [List.cons_append, List.append_assoc, List.nil_append] at within ⊢
      obtain ⟨found, same, read⟩ := @arguments_isRead .array bound [arg] (List.cons_ne_nil _ _)
        (by simpa only [List.forall_mem_singleton] using phrase)
        (by simpa only [List.forall_mem_singleton] using isRead) tail (position + 1)
        (by rw [alone]; exact Nat.le_of_succ_le (Nat.le_of_succ_le_succ within))
      have called : call .length position found = .ok (.length arg.operand) := by
        obtain ⟨⟨start, tree⟩, rfl, rfl⟩ := List.map_eq_singleton_iff.1 same
        have serves : Serves .array arg.tree arg.operand := arg.serves
        simp only [call, bind_eq_ok, operand_eq_ok_iff]
        exact ⟨_, serves, rfl⟩
      have positions : position + 1 + 1 + arg.tokens.length + 1 =
          position + (Token.function .length :: .leftParen ::
            (arg.tokens ++ [.rightParen])).length := by
        simp only [List.length_cons, List.length_append, List.length_nil]
        omega
      rw [alone, positions] at read
      simp only [reader, unary, Cursor.peek?, List.head?_cons, bind_eq_ok, Prod.exists]
      exact ⟨_, _, read, _, called, rfl⟩

theorem literal_isRead {token : Token} {e : Tree}
    (isRead : ∀ (bound position : Nat) (tail : List Token),
      unary (bound + 1) ⟨token :: tail, position⟩ = .ok (e, ⟨tail, position + 1⟩)) :
    IsRead .primary [token] e := by
  intro bound position tail within stops
  cases bound with
  | zero => cases within
  | succ bound => exact isRead bound position tail

/-- A phrase is read as its tree, and reading stops behind it. The induction is on the
derivation; the bound of the tightest level is counted down by its own productions only. -/
theorem read_of_derives {level : Level} {tokens : List Token} {e : Tree}
    (phrase : Derives level tokens e) : IsRead level tokens e := by
  induction phrase with
  | tighter isNext _ ih =>
      intro bound position tail within stops
      have stops' := stops.tighter (Level.rank_of_tighter? isNext)
      exact reader_of_tighter isNext stops (ih bound position tail within stops')
  | logic several _ _ ih ih' => exact logic_isRead several ih ih'
  | equal _ _ ih ih' => exact equal_isRead ih ih'
  | compare _ _ ih ih' => exact compare_isRead ih ih'
  | chain several _ _ ih ih' => exact chain_isRead several ih ih'
  | negate _ ih => exact negate_isRead ih
  | not _ ih => exact not_isRead ih
  | path p => exact path_isRead p
  | withDefault p _ ih => exact withDefault_isRead p ih
  | parens _ ih => exact parens_isRead ih
  | fold several phrases ih => exact fold_isRead several phrases ih
  | length phrase ih => exact length_isRead phrase ih
  | number x => exact literal_isRead fun _ _ _ => rfl
  | boolean b => exact literal_isRead fun _ _ _ => rfl
  | string s => exact literal_isRead fun _ _ _ => rfl

theorem ofTokens_of_derives {tokens : List Token} {e : Tree} (phrase : Derives .or tokens e) :
    ofTokens tokens = .ok e := by
  have within : (tokens ++ []).length ≤ tokens.length :=
    Nat.le_of_eq (congrArg List.length (List.append_nil tokens))
  have read := read_of_derives phrase tokens.length 0 [] within (stops_nil .or)
  rw [List.append_nil] at read
  simp only [ofTokens, bind_eq_ok, Prod.exists]
  exact ⟨_, _, read, rfl⟩

/-- Tokens are read as an expression exactly if the grammar derives it from them: every phrase is
read, nothing else is, and a phrase has no tree but the one that is read. -/
theorem ofTokens_eq_ok_iff (tokens : List Token) (e : Tree) :
    ofTokens tokens = .ok e ↔ Derives .or tokens e :=
  ⟨derives_of_ofTokens, ofTokens_of_derives⟩

end PathExpr.Expr
