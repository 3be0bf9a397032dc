import PathExpr.Proofs.Grammar.Complete

set_option autoImplicit false

namespace PathExpr.Expr

def endsOperand : Token → Bool
  | .path _ => true
  | .number _ => true
  | .boolean _ => true
  | .string _ => true
  | .rightParen => true
  | _ => false

def signApart : Token → List Token
  | .number x => if Double.isNegative x then [.minus, .number (-x)] else [.number x]
  | token => [token]

/-- The tokens with the sign apart from each negative number right behind an operand. An operand
ends right before the first token if `behind`. -/
def spaced (behind : Bool) : List Token → List Token
  | [] => []
  | token :: rest =>
      (if behind then signApart token else [token]) ++ spaced (endsOperand token) rest

/-- The tokens differ only in whether the sign of a negative number behind an operand is apart from
it. -/
inductive Respaced : (behind : Bool) → List Token → List Token → Prop
  | nil {behind : Bool} : Respaced behind [] []
  | token {behind : Bool} (t : Token) {rest rest' : List Token}
      (further : Respaced (endsOperand t) rest rest') : Respaced behind (t :: rest) (t :: rest')
  | apart {x : Float} {rest rest' : List Token} (isNegative : Double.isNegative x = true)
      (further : Respaced true rest rest') :
      Respaced true (.number x :: rest) (.minus :: .number (-x) :: rest')
  | together {x : Float} {rest rest' : List Token} (isNegative : Double.isNegative x = true)
      (further : Respaced true rest rest') :
      Respaced true (.minus :: .number (-x) :: rest) (.number x :: rest')

theorem Respaced.symm {behind : Bool} {tokens tokens' : List Token}
    (respaced : Respaced behind tokens tokens') : Respaced behind tokens' tokens := by
  induction respaced with
  | nil => exact .nil
  | token t _ ih => exact .token t ih
  | apart isNegative _ ih => exact .together isNegative ih
  | together isNegative _ ih => exact .apart isNegative ih

theorem respaced_spaced (behind : Bool) (tokens : List Token) :
    Respaced behind tokens (spaced behind tokens) := by
  induction tokens generalizing behind with
  | nil => exact .nil
  | cons t rest ih =>
      have same : Respaced behind (t :: rest) (t :: spaced (endsOperand t) rest) := .token t (ih _)
      cases behind with
      | false => exact same
      | true =>
          cases t with
          | number x =>
              by_cases isNegative : Double.isNegative x = true
              · rw [spaced, if_pos rfl, signApart, if_pos isNegative]
                exact .apart isNegative (ih true)
              · rw [spaced, if_pos rfl, signApart, if_neg isNegative]
                exact same
          | _ => exact same

/-- Whether an operand ends right behind the tokens, given whether one ends right before them. -/
def endsBehind (behind : Bool) (tokens : List Token) : Bool :=
  tokens.foldl (fun _ token => endsOperand token) behind

/-- An operand ends right behind the tokens, whatever stands before them. -/
def EndsOperand (tokens : List Token) : Prop := ∀ behind, endsBehind behind tokens = true

theorem EndsOperand.append_left {tokens : List Token} (ends : EndsOperand tokens)
    (before : List Token) : EndsOperand (before ++ tokens) := by
  intro behind
  rw [endsBehind, List.foldl_append]
  exact ends _

theorem EndsOperand.cons {tokens : List Token} (ends : EndsOperand tokens) (t : Token) :
    EndsOperand (t :: tokens) :=
  ends.append_left [t]

theorem EndsOperand.append_flatMap {α : Type} {first : List Token} {rest : List α}
    {written : α → List Token} (ends : EndsOperand first)
    (each : ∀ next ∈ rest, EndsOperand (written next)) :
    EndsOperand (first ++ rest.flatMap written) := by
  induction rest generalizing first with
  | nil =>
      rw [List.flatMap_nil, List.append_nil]
      exact ends
  | cons next rest ih =>
      obtain ⟨here, further⟩ := List.forall_mem_cons.1 each
      rw [List.flatMap_cons, ← List.append_assoc]
      exact ih (here.append_left first) further

theorem Written.endsOperand {op : Associative} {direction : Direction}
    {phrase written : List Token} (isWritten : Written op direction phrase written)
    (ends : EndsOperand phrase) : EndsOperand written := by
  cases isWritten with
  | plus | minus | star | slash => exact ends.cons _
  | negative rest => exact ends

theorem Derives.endsOperand {level : Level} {tokens : List Token} {e : Tree}
    (phrase : Derives level tokens e) : EndsOperand tokens := by
  have closed (before : List Token) : EndsOperand (before ++ [.rightParen]) :=
    EndsOperand.append_left (fun _ => rfl) before
  induction phrase with
  | tighter _ _ ih => exact ih
  | logic _ _ _ ih ihs => exact ih.append_flatMap fun next isIn => (ihs next isIn).cons _
  | equal _ _ _ ih | compare _ _ _ ih => exact (ih.cons _).append_left _
  | chain _ _ _ ih ihs =>
      exact ih.append_flatMap fun next isIn => next.isWritten.endsOperand (ihs next isIn)
  | negate _ ih | not _ ih => exact ih.cons _
  | number | boolean | string | path => exact fun _ => rfl
  | withDefault _ _ ih => exact (ih.cons _).cons _
  | parens => exact (closed _).cons _
  | fold | length => exact ((closed _).cons _).cons _

section

variable {behind : Bool} {t : Token} {first rest tokens' : List Token}

theorem Respaced.eq_nil (respaced : Respaced behind [] tokens') : tokens' = [] := by
  cases respaced
  rfl

theorem Respaced.cons_fresh (respaced : Respaced false (t :: rest) tokens') :
    ∃ rest', tokens' = t :: rest' ∧ Respaced (endsOperand t) rest rest' := by
  cases respaced with
  | token _ further => exact ⟨_, rfl, further⟩

theorem Respaced.cons_other (respaced : Respaced behind (t :: rest) tokens')
    (noMinus : t ≠ .minus) (noNumber : ∀ x, t ≠ .number x) :
    ∃ rest', tokens' = t :: rest' ∧ Respaced (endsOperand t) rest rest' := by
  cases respaced with
  | token _ further => exact ⟨_, rfl, further⟩
  | apart => exact absurd rfl (noNumber _)
  | together => exact absurd rfl noMinus

theorem Respaced.eq_closing (respaced : Respaced behind [.rightParen] tokens') :
    tokens' = [.rightParen] := by
  obtain ⟨_, rfl, nothing⟩ := respaced.cons_other nofun nofun
  rw [nothing.eq_nil]

/-- A minus sign is the same, or it is put together with the number behind it. -/
theorem Respaced.cons_minus (respaced : Respaced behind (.minus :: rest) tokens') :
    (∃ rest', tokens' = .minus :: rest' ∧ Respaced false rest rest') ∨
      ∃ x further further', Double.isNegative x = true ∧ rest = .number (-x) :: further ∧
        tokens' = .number x :: further' ∧ Respaced true further further' := by
  cases respaced with
  | token _ further => exact .inl ⟨_, rfl, further⟩
  | together isNegative further => exact .inr ⟨_, _, _, isNegative, rfl, rfl, further⟩

/-- A number is the same, or its sign is apart. -/
theorem Respaced.cons_number {x : Float} (respaced : Respaced behind (.number x :: rest) tokens') :
    ∃ rest', Respaced true rest rest' ∧
      (tokens' = .number x :: rest' ∨ tokens' = .minus :: .number (-x) :: rest') := by
  cases respaced with
  | token _ further => exact ⟨_, further, .inl rfl⟩
  | apart _ further => exact ⟨_, further, .inr rfl⟩

/-- Tokens behind which an operand ends do not end with the sign of a number that was taken apart,
so what stands behind them is respaced by itself. -/
theorem Respaced.split (respaced : Respaced behind (first ++ rest) tokens')
    (ends : endsBehind behind first = true) :
    ∃ first' rest', tokens' = first' ++ rest' ∧ Respaced behind first first' ∧
      Respaced true rest rest' := by
  generalize whole : first ++ rest = tokens at respaced
  induction respaced generalizing first with
  | nil =>
      obtain ⟨rfl, rfl⟩ := List.append_eq_nil_iff.1 whole
      exact ⟨[], [], rfl, .nil, .nil⟩
  | @token behind t tail tail' further ih =>
      rcases List.append_eq_cons_iff.1 whole with ⟨rfl, rfl⟩ | ⟨front, rfl, rfl⟩
      · obtain rfl : behind = true := ends
        exact ⟨[], _, rfl, .nil, .token t further⟩
      · obtain ⟨front', rest', rfl, left, right⟩ := ih ends rfl
        exact ⟨t :: front', rest', rfl, .token t left, right⟩
  | @apart x tail tail' isNegative further ih =>
      rcases List.append_eq_cons_iff.1 whole with ⟨rfl, rfl⟩ | ⟨front, rfl, rfl⟩
      · exact ⟨[], _, rfl, .nil, .apart isNegative further⟩
      · obtain ⟨front', rest', rfl, left, right⟩ := @ih front ends rfl
        exact ⟨_ :: _ :: front', rest', rfl, .apart isNegative left, right⟩
  | @together x tail tail' isNegative further ih =>
      rcases List.append_eq_cons_iff.1 whole with ⟨rfl, rfl⟩ | ⟨signed, rfl, behindSign⟩
      · exact ⟨[], _, rfl, .nil, .together isNegative further⟩
      · rcases List.append_eq_cons_iff.1 behindSign.symm with ⟨rfl, -⟩ | ⟨front, rfl, rfl⟩
        · cases ends
        · obtain ⟨front', rest', rfl, left, right⟩ := @ih front ends rfl
          exact ⟨_ :: front', rest', rfl, .together isNegative left, right⟩

end

/-- However the tokens are respaced, they are a phrase of the level with the tree. -/
def Keeps (level : Level) (tokens : List Token) (e : Tree) : Prop :=
  ∀ tokens', Respaced false tokens tokens' → Derives level tokens' e

theorem keeps_literal {t : Token} {e : Tree} (phrase : Derives .primary [t] e) :
    Keeps .primary [t] e := by
  intro tokens' respaced
  obtain ⟨_, rfl, nothing⟩ := respaced.cons_fresh
  rw [nothing.eq_nil]
  exact phrase

/-- A phrase in front of other tokens is respaced by itself. -/
theorem Keeps.split {level : Level} {tokens rest tokens' : List Token} {e : Tree}
    (keeps : Keeps level tokens e) (ends : EndsOperand tokens)
    (respaced : Respaced false (tokens ++ rest) tokens') :
    ∃ phrase rest', tokens' = phrase ++ rest' ∧ Derives level phrase e ∧
      Respaced true rest rest' := by
  obtain ⟨phrase, rest', rfl, left, right⟩ := respaced.split (ends false)
  exact ⟨phrase, rest', rfl, keeps phrase left, right⟩

/-- The tokens begin with a further operand that makes the step, written in some way, and behind it
they are the other ones respaced. -/
def GoesOn (op : Associative) (step : Direction × Expr Float (some .number))
    (rest tokens' : List Token) : Prop :=
  ∃ (next : Further op) (rest' : List Token), tokens' = next.written ++ rest' ∧
    next.step = step ∧ Derives (.belowAssociative op) next.part.tokens next.part.tree ∧
    Respaced true rest rest'

theorem goesOn_operator {op : Associative} {direction : Direction} {part : Part .number}
    {sign : Token} (isSign : ∀ phrase, Written op direction phrase (sign :: phrase))
    (keeps : Keeps (.belowAssociative op) part.tokens part.tree)
    (ends : EndsOperand part.tokens) {rest behindSign : List Token}
    (respaced : Respaced false (part.tokens ++ rest) behindSign) :
    GoesOn op (direction, part.operand) rest (sign :: behindSign) := by
  obtain ⟨phrase, rest', rfl, isPhrase, right⟩ := keeps.split ends respaced
  let part' : Part .number := ⟨phrase, part.tree, part.operand, part.serves⟩
  exact ⟨⟨direction, part', _, isSign phrase⟩, rest', rfl, rfl, isPhrase, right⟩

/-- Whether the sign of a negative number is apart or not, the tokens behind it are respaced as they
are behind the number without the sign. -/
theorem goesOn_number {x : Float} {phrase : List Token} {tree : Tree}
    {e : Expr Float (some .number)} (serves : Serves .number tree e)
    (isNegative : Double.isNegative x = true)
    (keeps : Keeps .product (.number (-x) :: phrase) tree)
    (ends : EndsOperand (.number (-x) :: phrase)) {rest tokens' : List Token}
    (respaced : Respaced true (phrase ++ rest) tokens') :
    GoesOn .sum (.against, e) rest (.number x :: tokens') ∧
      GoesOn .sum (.against, e) rest (.minus :: .number (-x) :: tokens') := by
  obtain ⟨phrase', rest', rfl, left, right⟩ := respaced.split (ends false)
  have isPhrase : Derives .product (.number (-x) :: phrase') tree := keeps _ (.token _ left)
  let part : Part .number := ⟨.number (-x) :: phrase', tree, e, serves⟩
  constructor
  · exact ⟨⟨.against, part, _, .negative phrase' isNegative⟩, rest', rfl, rfl, isPhrase, right⟩
  · exact ⟨⟨.against, part, _, .minus _⟩, rest', rfl, rfl, isPhrase, right⟩

/-- A further term or factor, however it is written and respaced, still makes the same step. -/
theorem Further.goesOn {op : Associative} (next : Further op)
    (keeps : Keeps (.belowAssociative op) next.part.tokens next.part.tree)
    (ends : EndsOperand next.part.tokens) {rest tokens' : List Token}
    (respaced : Respaced true (next.written ++ rest) tokens') :
    GoesOn op next.step rest tokens' := by
  obtain ⟨direction, ⟨tokens, tree, e, serves⟩, written, isWritten⟩ := next
  dsimp only at keeps ends isWritten respaced
  have operator {sign : Token} {behindSign : List Token}
      (isSign : ∀ phrase, Written op direction phrase (sign :: phrase))
      (further : Respaced false (tokens ++ rest) behindSign) :
      GoesOn op (direction, e) rest (sign :: behindSign) :=
    @goesOn_operator op direction ⟨tokens, tree, e, serves⟩ sign isSign keeps ends rest behindSign
      further
  cases isWritten with
  | plus =>
      obtain ⟨behindSign, rfl, further⟩ := respaced.cons_other nofun nofun
      exact operator .plus further
  | star =>
      obtain ⟨behindSign, rfl, further⟩ := respaced.cons_other nofun nofun
      exact operator .star further
  | slash =>
      obtain ⟨behindSign, rfl, further⟩ := respaced.cons_other nofun nofun
      exact operator .slash further
  | minus =>
      rcases respaced.cons_minus with ⟨behindSign, rfl, further⟩ |
        ⟨x, further, further', isNegative, isNumber, rfl, right⟩
      · exact operator .minus further
      · rcases List.append_eq_cons_iff.1 isNumber with ⟨rfl, -⟩ | ⟨phrase, rfl, rfl⟩
        · cases ends false
        · exact (goesOn_number serves isNegative keeps ends right).1
  | @negative x phrase isNegative =>
      obtain ⟨further', right, rfl | rfl⟩ := respaced.cons_number
      · exact (goesOn_number serves isNegative keeps ends right).1
      · exact (goesOn_number serves isNegative keeps ends right).2

theorem respaced_further {op : Associative} {rest : List (Further op)}
    (keeps : ∀ next ∈ rest, Keeps (.belowAssociative op) next.part.tokens next.part.tree)
    (ends : ∀ next ∈ rest, EndsOperand next.part.tokens) {tokens' : List Token}
    (respaced : Respaced true (rest.flatMap Further.written) tokens') :
    ∃ rest' : List (Further op), tokens' = rest'.flatMap Further.written ∧
      rest'.map Further.step = rest.map Further.step ∧
      ∀ next ∈ rest', Derives (.belowAssociative op) next.part.tokens next.part.tree := by
  induction rest generalizing tokens' with
  | nil => exact ⟨[], respaced.eq_nil, rfl, List.forall_mem_nil _⟩
  | cons next rest ih =>
      obtain ⟨here, further⟩ := List.forall_mem_cons.1 keeps
      obtain ⟨endsHere, endsFurther⟩ := List.forall_mem_cons.1 ends
      rw [List.flatMap_cons] at respaced
      obtain ⟨next', behindNext, rfl, step, phrase, right⟩ := next.goesOn here endsHere respaced
      obtain ⟨rest', rfl, steps, phrases⟩ := ih further endsFurther right
      refine ⟨next' :: rest', ?_, ?_, List.forall_mem_cons.2 ⟨phrase, phrases⟩⟩
      · rw [List.flatMap_cons]
      · rw [List.map_cons, List.map_cons, step, steps]

theorem respaced_junction {op : Logical} {rest : List (Spelling × Part .boolean)}
    (keeps : ∀ next ∈ rest, Keeps (.belowLogical op) next.2.tokens next.2.tree)
    (ends : ∀ next ∈ rest, EndsOperand next.2.tokens) {tokens' : List Token}
    (respaced : Respaced true
      (rest.flatMap fun next => .logical op next.1 :: next.2.tokens) tokens') :
    ∃ rest' : List (Spelling × Part .boolean),
      tokens' = (rest'.flatMap fun next => .logical op next.1 :: next.2.tokens) ∧
      (rest'.map fun next => next.2.operand) = (rest.map fun next => next.2.operand) ∧
      ∀ next ∈ rest', Derives (.belowLogical op) next.2.tokens next.2.tree := by
  induction rest generalizing tokens' with
  | nil => exact ⟨[], respaced.eq_nil, rfl, List.forall_mem_nil _⟩
  | cons next rest ih =>
      obtain ⟨spelling, tokens, tree, e, serves⟩ := next
      obtain ⟨here, further⟩ := List.forall_mem_cons.1 keeps
      obtain ⟨endsHere, endsFurther⟩ := List.forall_mem_cons.1 ends
      rw [List.flatMap_cons] at respaced
      obtain ⟨behindSign, rfl, fresh⟩ := respaced.cons_other nofun nofun
      obtain ⟨phrase, behindPhrase, rfl, isPhrase, right⟩ := here.split endsHere fresh
      obtain ⟨rest', rfl, operands, phrases⟩ := ih further endsFurther right
      refine ⟨(spelling, ⟨phrase, tree, e, serves⟩) :: rest', rfl, ?_,
        List.forall_mem_cons.2 ⟨isPhrase, phrases⟩⟩
      rw [List.map_cons, List.map_cons, operands]

theorem respaced_arguments {k : Kind} {args : List (Part k)} (several : args ≠ [])
    (keeps : ∀ arg ∈ args, Keeps .or arg.tokens arg.tree)
    (ends : ∀ arg ∈ args, EndsOperand arg.tokens) {tokens' : List Token}
    (respaced : Respaced false
      ([Token.comma].intercalate (args.map Part.tokens) ++ [.rightParen]) tokens') :
    ∃ args' : List (Part k), args' ≠ [] ∧
      tokens' = [Token.comma].intercalate (args'.map Part.tokens) ++ [.rightParen] ∧
      args'.map Part.operand = args.map Part.operand ∧
      ∀ arg ∈ args', Derives .or arg.tokens arg.tree := by
  induction args generalizing tokens' with
  | nil => exact absurd rfl several
  | cons arg rest ih =>
      obtain ⟨here, further⟩ := List.forall_mem_cons.1 keeps
      obtain ⟨endsHere, endsFurther⟩ := List.forall_mem_cons.1 ends
      by_cases last : rest = []
      · subst last
        rw [List.map_singleton, List.intercalate_singleton] at respaced
        obtain ⟨phrase, closing, rfl, isPhrase, right⟩ := here.split endsHere respaced
        obtain rfl := right.eq_closing
        let arg' : Part k := ⟨phrase, arg.tree, arg.operand, arg.serves⟩
        refine ⟨[arg'], List.cons_ne_nil _ _, ?_, rfl, List.forall_mem_singleton.2 isPhrase⟩
        rw [List.map_singleton, List.intercalate_singleton]
      · have others : rest.map Part.tokens ≠ [] := fun none => last (List.map_eq_nil_iff.1 none)
        rw [List.map_cons, List.intercalate_cons_of_ne_nil others, List.append_assoc,
          List.append_assoc] at respaced
        obtain ⟨phrase, behindPhrase, rfl, isPhrase, right⟩ := here.split endsHere respaced
        obtain ⟨behindComma, rfl, fresh⟩ := right.cons_other nofun nofun
        obtain ⟨rest', some, rfl, operands, phrases⟩ := ih last further endsFurther fresh
        let arg' : Part k := ⟨phrase, arg.tree, arg.operand, arg.serves⟩
        refine ⟨arg' :: rest', List.cons_ne_nil _ _, ?_, ?_,
          List.forall_mem_cons.2 ⟨isPhrase, phrases⟩⟩
        · have others' : rest'.map Part.tokens ≠ [] :=
            fun none => some (List.map_eq_nil_iff.1 none)
          rw [List.map_cons, List.intercalate_cons_of_ne_nil others', List.append_assoc,
            List.append_assoc]
          rfl
        · rw [List.map_cons, List.map_cons, operands]

/-- Respaced tokens are phrases of the same levels with the same trees. The induction is on the
derivation; an operand stays an operand, and a further term may change the way it is written. -/
theorem Derives.keeps {level : Level} {tokens : List Token} {e : Tree}
    (phrase : Derives level tokens e) : Keeps level tokens e := by
  induction phrase with
  | tighter isNext _ ih => exact fun tokens' respaced => .tighter isNext (ih tokens' respaced)
  | @logic op first rest several phrase phrases ih ihs =>
      intro tokens' respaced
      obtain ⟨left, behindFirst, rfl, isFirst, further⟩ := ih.split phrase.endsOperand respaced
      obtain ⟨rest', rfl, operands, phrases'⟩ :=
        respaced_junction ihs (fun next isIn => (phrases next isIn).endsOperand) further
      let first' : Part .boolean := ⟨left, first.tree, first.operand, first.serves⟩
      have several' : rest' ≠ [] := by
        rintro rfl
        exact several (List.map_eq_nil_iff.1 operands.symm)
      rw [← operands]
      exact @Derives.logic op first' rest' several' isFirst phrases'
  | equal left _ ihLeft ihRight =>
      intro tokens' respaced
      obtain ⟨left', behindLeft, rfl, isLeft, further⟩ := ihLeft.split left.endsOperand respaced
      obtain ⟨right', rfl, fresh⟩ := further.cons_other nofun nofun
      exact .equal isLeft (ihRight right' fresh)
  | @compare op left right phrase _ ihLeft ihRight =>
      intro tokens' respaced
      obtain ⟨left', behindLeft, rfl, isLeft, further⟩ := ihLeft.split phrase.endsOperand respaced
      obtain ⟨right', rfl, fresh⟩ := further.cons_other nofun nofun
      exact @Derives.compare op ⟨left', left.tree, left.operand, left.serves⟩
        ⟨right', right.tree, right.operand, right.serves⟩ isLeft (ihRight right' fresh)
  | @chain op first rest several phrase phrases ih ihs =>
      intro tokens' respaced
      obtain ⟨left, behindFirst, rfl, isFirst, further⟩ := ih.split phrase.endsOperand respaced
      obtain ⟨rest', rfl, steps, phrases'⟩ :=
        respaced_further ihs (fun next isIn => (phrases next isIn).endsOperand) further
      let first' : Part .number := ⟨left, first.tree, first.operand, first.serves⟩
      have several' : rest' ≠ [] := by
        rintro rfl
        exact several (List.map_eq_nil_iff.1 steps.symm)
      rw [← steps]
      exact @Derives.chain op first' rest' several' isFirst phrases'
  | @negate part _ ih =>
      intro tokens' respaced
      obtain ⟨rest', rfl, fresh⟩ := respaced.cons_fresh
      exact @Derives.negate ⟨rest', part.tree, part.operand, part.serves⟩ (ih rest' fresh)
  | @not part _ ih =>
      intro tokens' respaced
      obtain ⟨rest', rfl, fresh⟩ := respaced.cons_fresh
      exact @Derives.not ⟨rest', part.tree, part.operand, part.serves⟩ (ih rest' fresh)
  | number x => exact keeps_literal (.number x)
  | boolean b => exact keeps_literal (.boolean b)
  | string s => exact keeps_literal (.string s)
  | path p => exact keeps_literal (.path p)
  | withDefault p _ ih =>
      intro tokens' respaced
      obtain ⟨behindPath, rfl, further⟩ := respaced.cons_fresh
      obtain ⟨rest', rfl, fresh⟩ := further.cons_other nofun nofun
      exact .withDefault p (ih rest' fresh)
  | parens inside ih =>
      intro tokens' respaced
      obtain ⟨behindParen, rfl, fresh⟩ := respaced.cons_fresh
      obtain ⟨inside', closing, rfl, isInside, further⟩ := ih.split inside.endsOperand fresh
      rw [further.eq_closing]
      exact .parens isInside
  | @fold op args several phrases ih =>
      intro tokens' respaced
      obtain ⟨behindName, rfl, further⟩ := respaced.cons_fresh
      obtain ⟨behindParen, rfl, fresh⟩ := further.cons_fresh
      obtain ⟨args', several', rfl, operands, phrases'⟩ :=
        respaced_arguments several ih (fun arg isIn => (phrases arg isIn).endsOperand) fresh
      rw [← operands]
      exact .fold several' phrases'
  | @length arg phrase ih =>
      intro tokens' respaced
      obtain ⟨behindName, rfl, further⟩ := respaced.cons_fresh
      obtain ⟨behindParen, rfl, fresh⟩ := further.cons_fresh
      obtain ⟨inside, closing, rfl, isInside, further⟩ := ih.split phrase.endsOperand fresh
      rw [further.eq_closing]
      exact @Derives.length ⟨inside, arg.tree, arg.operand, arg.serves⟩ isInside

/-- It does not matter whether there is a space around a minus sign: the tokens are read as the same
expression if the sign of each negative number right behind an operand is a token of its own. -/
theorem ofTokens_spaced_eq_ok_iff (tokens : List Token) (e : Tree) :
    ofTokens tokens = .ok e ↔ ofTokens (spaced false tokens) = .ok e := by
  have respaced := respaced_spaced false tokens
  rw [ofTokens_eq_ok_iff, ofTokens_eq_ok_iff]
  exact ⟨fun phrase => phrase.keeps _ respaced, fun phrase => phrase.keeps _ respaced.symm⟩

/-- `3 -1 * -2` is `3 - 1 * -2`: the second number is behind an operator. -/
example : spaced false [.number 3, .number (-1), .star, .number (-2)] =
    [.number 3, .minus, .number 1, .star, .number (-2)] := by
  decide +kernel

end PathExpr.Expr
