import PathExpr.Proofs.Grammar.Local

set_option autoImplicit false

namespace PathExpr

def Function.argumentKind : Function → Kind
  | .fold _ => .number
  | .length => .array

namespace Expr

/-- The kind that the operators of a level serve; `==` takes operands of any kind. -/
def Level.operandKind? : Level → Option Kind
  | or => some .boolean
  | and => some .boolean
  | equality => none
  | comparison => some .number
  | sum => some .number
  | product => some .number
  | unary => none
  | primary => none

def Level.isChain : Level → Bool
  | or => true
  | and => true
  | sum => true
  | product => true
  | _ => false

def Fits (k : Option Kind) (e : Tree) : Prop := ∀ asked ∈ k, ∃ e', Serves asked e e'

/-- The level of the operator that a token is. A negative number only stands for one. -/
def operator? : Token → Option Level
  | .number _ => none
  | token => joint? token

mutual

/-- Behind the tokens a phrase of the level is due, as an operand or argument of the kind if one is
given. -/
inductive Due : List Token → Level → Option Kind → Prop
  | start : Due [] .or none
  | first {before : List Token} {level next : Level} {k : Option Kind}
      (isNext : level.tighter? = some next) (due : Due before level k) : Due before next none
  | operand {before : List Token} {level next : Level} {token : Token}
      (isNext : level.tighter? = some next) (begun : Begun before level)
      (isOperator : operator? token = some level) : Due (before ++ [token]) next level.operandKind?
  | negate {before : List Token} {k : Option Kind} (due : Due before .unary k) :
      Due (before ++ [.minus]) .unary (some .number)
  | not {before : List Token} {k : Option Kind} (due : Due before .unary k) :
      Due (before ++ [.not]) .unary (some .boolean)
  | default {before : List Token} {k : Option Kind} (p : Path) (due : Due before .primary k) :
      Due (before ++ [.path p] ++ [.otherwise]) .unary none
  | parens {before : List Token} {k : Option Kind} (due : Due before .primary k) :
      Due (before ++ [.leftParen]) .or none
  | argument {before : List Token} {k : Option Kind} (f : Function)
      (due : Due before .primary k) :
      Due (before ++ [.function f] ++ [.leftParen]) .or (some f.argumentKind)
  /-- A whole expression that has to be of a kind is an argument, and others may come behind it. -/
  | nextArgument {before phrase : List Token} {k : Kind} {e : Tree}
      (due : Due before .or (some k)) (isPhrase : Derives .or phrase e) :
      Due (before ++ phrase ++ [.comma]) .or (some k)

/-- The tokens end with an operand of a phrase of the level, and an operator of the level may stand
behind it. -/
inductive Begun : List Token → Level → Prop
  | first {before phrase : List Token} {level next : Level} {k : Option Kind} {e : Tree}
      (isNext : level.tighter? = some next) (due : Due before level k)
      (isPhrase : Derives next phrase e) (fits : Fits level.operandKind? e) :
      Begun (before ++ phrase) level
  | further {before phrase : List Token} {level next : Level} {token : Token} {e : Tree}
      (isNext : level.tighter? = some next) (isChain : level.isChain = true)
      (begun : Begun before level) (isOperator : operator? token = some level)
      (isPhrase : Derives next phrase e) (fits : Fits level.operandKind? e) :
      Begun (before ++ token :: phrase) level
  /-- A negative number behind an operand is a minus sign and a number. -/
  | negative {before phrase : List Token} {x : Float} {e : Tree} (begun : Begun before .sum)
      (isNegative : Double.isNegative x = true)
      (isPhrase : Derives .product (.number (-x) :: phrase) e)
      (fits : Fits Level.sum.operandKind? e) :
      Begun (before ++ .number x :: phrase) .sum
  | negativeFactor {before : List Token} {x : Float} (begun : Begun before .sum)
      (isNegative : Double.isNegative x = true) : Begun (before ++ [.number x]) .product

end

/-- A phrase of the level between the tokens has to be of the kind, for what stands before it or for
the operator right behind it. -/
def Asked (before : List Token) (level : Level) (k : Kind) (behind : List Token) : Prop :=
  Due before level (some k) ∨
    ∃ (outer : Level) (k' : Option Kind), Due before outer k' ∧ outer.tighter? = some level ∧
      outer.operandKind? = some k ∧ ∃ token ∈ behind.head?, joint? token = some outer

/-- The tree is of the kind: it is typed so, or its default is of the kind. -/
inductive HasKind (k : Kind) : Tree → Prop
  | typed (e : Expr Float (some k)) : HasKind k (.typed e)
  | withDefault (p : Path) {d : Tree} (default : HasKind k d) : HasKind k (.withDefault p d)

/-- At the position begins an operand or argument that is asked to be of the kind. It is the longest
phrase of its level there, and the tree is its. -/
def OperandAt (tokens : List Token) (k : Kind) (position : Nat) (e : Tree) : Prop :=
  ∃ (before phrase behind : List Token) (level : Level),
    tokens = before ++ phrase ++ behind ∧ before.length = position ∧ Derives level phrase e ∧
      Longest level phrase behind ∧ Asked before level k behind

theorem joint?_of_operator? {token : Token} {level : Level}
    (isOperator : operator? token = some level) : joint? token = some level := by
  cases token with
  | number x => cases isOperator
  | _ => exact isOperator

theorem fits_of_serves {level : Level} {k : Kind} {e : Tree} {e' : Expr Float (some k)}
    (isKind : level.operandKind? = some k) (serves : Serves k e e') :
    Fits level.operandKind? e := by
  intro asked isAsked
  rw [isKind] at isAsked
  cases isAsked
  exact ⟨e', serves⟩

theorem hasKind_of_narrow {k found : Kind} :
    {e : Tree} → e.narrow k = .error found → HasKind found e ∧ k ≠ found
  | .path p, failed => by cases failed
  | .withDefault p d, failed => by
      simp only [narrow] at failed
      cases inner : d.narrow k with
      | ok d' =>
          rw [inner] at failed
          cases failed
      | error found' =>
          rw [inner] at failed
          cases failed
          obtain ⟨hasKind, differ⟩ := hasKind_of_narrow inner
          exact ⟨.withDefault p hasKind, differ⟩
  | .typed (k := j) e, failed => by
      simp only [narrow] at failed
      by_cases same : j = k
      · subst same
        rw [dif_pos rfl] at failed
        cases failed
      · rw [dif_neg same] at failed
        cases failed
        exact ⟨.typed e, Ne.symm same⟩

theorem OperandAt.position_lt {tokens : List Token} {k : Kind} {position : Nat} {e : Tree}
    (operandAt : OperandAt tokens k position e) : position < tokens.length := by
  obtain ⟨before, phrase, behind, level, rfl, rfl, isPhrase, -⟩ := operandAt
  obtain ⟨first, rest, rfl, -⟩ := isPhrase.begins
  simp only [List.length_append, List.length_cons]
  omega

end Expr

end PathExpr
