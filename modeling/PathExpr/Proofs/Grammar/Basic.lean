import PathExpr.Expr.Parser

set_option autoImplicit false

namespace PathExpr.Expr

/-- How tightly the operators of a phrase bind, from the loosest to the tightest. -/
inductive Level where
  | or
  | and
  | equality
  | comparison
  | sum
  | product
  | unary
  | primary
deriving Repr, DecidableEq

namespace Level

def tighter? : Level → Option Level
  | or => some and
  | and => some equality
  | equality => some comparison
  | comparison => some sum
  | sum => some product
  | product => some unary
  | unary => some primary
  | primary => none

def ofLogical : Logical → Level
  | .or => or
  | .and => and

def belowLogical : Logical → Level
  | .or => and
  | .and => equality

def ofAssociative : Associative → Level
  | .sum => sum
  | .product => product

def belowAssociative : Associative → Level
  | .sum => product
  | .product => unary

end Level

section

variable {ν : Type}

/-- An expression of any kind may stand where kind `k` is asked for, and is the second expression
there: its untyped paths take on the kind, and what they default to is of the kind already. -/
inductive Serves (k : Kind) : Expr ν none → Expr ν (some k) → Prop
  | path (p : Path) : Serves k (.path p) (.path p)
  | withDefault (p : Path) {d : Expr ν none} {d' : Expr ν (some k)} (default : Serves k d d') :
      Serves k (.withDefault p d) (.withDefault p d')
  | typed (e : Expr ν (some k)) : Serves k (.typed e) e

/-- How an operand goes on with what stands before it: by the operator of the chain, which is
`+` or `*`, or by its inverse, which is `-` or `/`. -/
inductive Direction where
  | along
  | against
deriving Repr, DecidableEq

def inverse : Associative → (left right : Expr ν (some .number)) → Expr ν (some .number)
  | .sum => .subtract
  | .product => .divide

mutual

/-- The tree of `left` and the operands behind it. An inverse operator takes everything before it as
its left operand; a run of operands joined by the operator of the chain is one node. -/
def joined (op : Associative) (left : Expr ν (some .number)) :
    List (Direction × Expr ν (some .number)) → Expr ν (some .number)
  | [] => left
  | (.against, e) :: rest => joined op (inverse op left e) rest
  | (.along, e) :: rest => joinedRun op [left, e] rest

def joinedRun (op : Associative) (run : List (Expr ν (some .number))) :
    List (Direction × Expr ν (some .number)) → Expr ν (some .number)
  | [] => .chain op run
  | (.against, e) :: rest => joined op (inverse op (.chain op run) e) rest
  | (.along, e) :: rest => joinedRun op (run ++ [e]) rest

end

/-- The tree of a run, which may be a single operand, and the operands behind it. -/
def joinedFrom (op : Associative) :
    List (Expr ν (some .number)) → List (Direction × Expr ν (some .number)) →
      Expr ν (some .number)
  | [left], rest => joined op left rest
  | run, rest => joinedRun op run rest

end

/-- An operand of kind `k`: the tokens of a phrase, its tree, and what the tree is as an operand. -/
structure Part (k : Kind) where
  tokens : List Token
  tree : Tree
  operand : Expr Float (some k)
  serves : Serves k tree operand

/-- How an operand behind the first one is written: an operator and a phrase. The phrase of a
negative number right behind another operand is that of the number without its sign. -/
inductive Written : Associative → Direction → (phrase written : List Token) → Prop
  | plus (phrase : List Token) : Written .sum .along phrase (.plus :: phrase)
  | minus (phrase : List Token) : Written .sum .against phrase (.minus :: phrase)
  | negative {x : Float} (rest : List Token) (isNegative : Double.isNegative x = true) :
      Written .sum .against (.number (-x) :: rest) (.number x :: rest)
  | star (phrase : List Token) : Written .product .along phrase (.star :: phrase)
  | slash (phrase : List Token) : Written .product .against phrase (.slash :: phrase)

/-- An operand of a sum or product behind the first one. -/
structure Further (op : Associative) where
  direction : Direction
  part : Part .number
  written : List Token
  isWritten : Written op direction part.tokens written

def Further.step {op : Associative} (further : Further op) :
    Direction × Expr Float (some .number) :=
  (further.direction, further.part.operand)

/-- The tokens are a phrase of the level, and the tree is theirs. -/
inductive Derives : Level → List Token → Tree → Prop
  /-- A phrase without an operator of the level. -/
  | tighter {level next : Level} {tokens : List Token} {e : Tree}
      (isNext : level.tighter? = some next) (phrase : Derives next tokens e) :
      Derives level tokens e
  /-- Operands joined by a logical operator, however each time it is spelled. -/
  | logic {op : Logical} {first : Part .boolean} {rest : List (Spelling × Part .boolean)}
      (several : rest ≠ []) (phrase : Derives (.belowLogical op) first.tokens first.tree)
      (phrases : ∀ next ∈ rest, Derives (.belowLogical op) next.2.tokens next.2.tree) :
      Derives (.ofLogical op)
        (first.tokens ++ rest.flatMap fun next => .logical op next.1 :: next.2.tokens)
        (.typed (.logic op (first.operand :: rest.map fun next => next.2.operand)))
  | equal {left right : List Token} {l r : Tree} (phrase : Derives .comparison left l)
      (phrase' : Derives .comparison right r) :
      Derives .equality (left ++ .equal :: right) (.typed (.equal l r))
  | compare {op : Comparison} {left right : Part .number}
      (phrase : Derives .sum left.tokens left.tree)
      (phrase' : Derives .sum right.tokens right.tree) :
      Derives .comparison (left.tokens ++ .comparison op :: right.tokens)
        (.typed (.compare op left.operand right.operand))
  | chain {op : Associative} {first : Part .number} {rest : List (Further op)}
      (several : rest ≠ []) (phrase : Derives (.belowAssociative op) first.tokens first.tree)
      (phrases : ∀ next ∈ rest,
        Derives (.belowAssociative op) next.part.tokens next.part.tree) :
      Derives (.ofAssociative op) (first.tokens ++ rest.flatMap Further.written)
        (.typed (joined op first.operand (rest.map Further.step)))
  | negate {part : Part .number} (phrase : Derives .unary part.tokens part.tree) :
      Derives .unary (.minus :: part.tokens) (.typed (.negate part.operand))
  | not {part : Part .boolean} (phrase : Derives .unary part.tokens part.tree) :
      Derives .unary (.not :: part.tokens) (.typed (.not part.operand))
  | number (x : Float) : Derives .primary [.number x] (.typed (.number x))
  | boolean (b : Bool) : Derives .primary [.boolean b] (.typed (.boolean b))
  | string (s : String) : Derives .primary [.string s] (.typed (.string s))
  | path (p : Path) : Derives .primary [.path p] (.path p)
  | withDefault (p : Path) {tokens : List Token} {d : Tree} (default : Derives .unary tokens d) :
      Derives .primary (.path p :: .otherwise :: tokens) (.withDefault p d)
  | parens {tokens : List Token} {e : Tree} (inside : Derives .or tokens e) :
      Derives .primary (.leftParen :: (tokens ++ [.rightParen])) e
  /-- `sum` or `product` with at least one argument. -/
  | fold {op : Associative} {args : List (Part .number)} (several : args ≠ [])
      (phrases : ∀ arg ∈ args, Derives .or arg.tokens arg.tree) :
      Derives .primary
        (.function (.fold op) :: .leftParen ::
          ([Token.comma].intercalate (args.map Part.tokens) ++ [.rightParen]))
        (.typed (.chain op (args.map Part.operand)))
  | length {arg : Part .array} (phrase : Derives .or arg.tokens arg.tree) :
      Derives .primary (.function .length :: .leftParen :: (arg.tokens ++ [.rightParen]))
        (.typed (.length arg.operand))

theorem Derives.whole {level : Level} {tokens : List Token} {e : Tree}
    (phrase : Derives level tokens e) : Derives .or tokens e := by
  have ofAnd : Derives .and tokens e → Derives .or tokens e := .tighter rfl
  have ofEquality : Derives .equality tokens e → Derives .or tokens e :=
    fun phrase => ofAnd (.tighter rfl phrase)
  have ofComparison : Derives .comparison tokens e → Derives .or tokens e :=
    fun phrase => ofEquality (.tighter rfl phrase)
  have ofSum : Derives .sum tokens e → Derives .or tokens e :=
    fun phrase => ofComparison (.tighter rfl phrase)
  have ofProduct : Derives .product tokens e → Derives .or tokens e :=
    fun phrase => ofSum (.tighter rfl phrase)
  have ofUnary : Derives .unary tokens e → Derives .or tokens e :=
    fun phrase => ofProduct (.tighter rfl phrase)
  cases level with
  | or => exact phrase
  | and => exact ofAnd phrase
  | equality => exact ofEquality phrase
  | comparison => exact ofComparison phrase
  | sum => exact ofSum phrase
  | product => exact ofProduct phrase
  | unary => exact ofUnary phrase
  | primary => exact ofUnary (.tighter rfl phrase)

theorem serves_of_narrow {ν : Type} {k : Kind} :
    {e : Expr ν none} → {e' : Expr ν (some k)} → e.narrow k = .ok e' → Serves k e e'
  | .path p, e', narrowed => by
      cases narrowed
      exact .path p
  | .withDefault p d, e', narrowed => by
      simp only [narrow] at narrowed
      cases inner : d.narrow k with
      | error found =>
          rw [inner] at narrowed
          cases narrowed
      | ok d' =>
          rw [inner] at narrowed
          cases narrowed
          exact .withDefault p (serves_of_narrow inner)
  | .typed (k := j) e, e', narrowed => by
      simp only [narrow] at narrowed
      by_cases same : j = k
      · subst same
        rw [dif_pos rfl] at narrowed
        cases narrowed
        exact .typed e
      · rw [dif_neg same] at narrowed
        cases narrowed

theorem narrow_eq_ok_iff {ν : Type} {k : Kind} {e : Expr ν none} {e' : Expr ν (some k)} :
    e.narrow k = .ok e' ↔ Serves k e e' := by
  refine ⟨serves_of_narrow, fun serves => ?_⟩
  induction serves with
  | path p => rfl
  | withDefault p _ ih => simp only [narrow, ih, Except.map]
  | typed e => exact narrow_typed k e

theorem mapError_eq_ok {ε ε' α : Type} {f : ε → ε'} {result : Except ε α} {a : α} :
    result.mapError f = .ok a ↔ result = .ok a := by
  cases result with
  | error fault =>
      show Except.error (f fault) = Except.ok a ↔ _
      simp only [reduceCtorEq]
  | ok b =>
      show Except.ok b = Except.ok a ↔ _
      simp only [Except.ok.injEq]

theorem map_eq_ok {ε α β : Type} {f : α → β} {result : Except ε α} {b : β} :
    result.map f = .ok b ↔ ∃ a, result = .ok a ∧ f a = b := by
  cases result with
  | error fault => simp only [Except.map, reduceCtorEq, false_and, exists_false]
  | ok a => simp only [Except.map, Except.ok.injEq, exists_eq_left']

theorem operand_eq_ok_iff {k : Kind} {start : Nat} {e : Tree} {e' : Expr Float (some k)} :
    operand k start e = .ok e' ↔ Serves k e e' := by
  rw [operand, mapError_eq_ok, narrow_eq_ok_iff]

end PathExpr.Expr
