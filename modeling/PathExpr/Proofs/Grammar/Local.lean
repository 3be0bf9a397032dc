import PathExpr.Proofs.Grammar.Complete

set_option autoImplicit false

namespace PathExpr

namespace Cursor

variable {α : Type}

def past (items : List α) (n : Nat) : Cursor α := ⟨items.drop n, n⟩

theorem eq_past {items before : List α} {c : Cursor α} (here : Reads before (ofList items) c) :
    c = past items before.length := by
  obtain ⟨isAppend, position⟩ := here
  have isRest : items = before ++ c.rest := isAppend
  have isPosition : c.position = before.length := position.trans (Nat.zero_add _)
  rw [past, isRest, List.drop_left, ← isPosition]

theorem peek?_past (items : List α) (n : Nat) : (past items n).peek? = items[n]? :=
  List.head?_drop

theorem lt_of_peek?_past {items : List α} {n : Nat} {x : α}
    (isNext : (past items n).peek? = some x) : n < items.length := by
  rw [peek?_past] at isNext
  exact (List.getElem?_eq_some_iff.1 isNext).1

theorem past_of_peek? {items : List α} {n : Nat} {x : α}
    (isNext : (past items n).peek? = some x) : past items n = ⟨x :: items.drop (n + 1), n⟩ := by
  rw [peek?_past] at isNext
  obtain ⟨within, rfl⟩ := List.getElem?_eq_some_iff.1 isNext
  rw [past, List.drop_eq_getElem_cons within]

theorem advance_past {items : List α} {n : Nat} {x : α}
    (isNext : (past items n).peek? = some x) : (past items n).advance = past items (n + 1) := by
  rw [past_of_peek? isNext, advance_cons]
  rfl

theorem le_length_past (items : List α) (n : Nat) :
    items.length - n ≤ (past items n).rest.length :=
  Nat.le_of_eq List.length_drop.symm

end Cursor

namespace Expr

open Cursor (past)

/-- The token that a fault reports as one that may not stand there. -/
def Fault.syntaxPosition? : Fault → Option Nat
  | unexpectedToken _ position => some position
  | expectedToken _ _ position => some position
  | unexpectedEnd _ => none
  | kindMismatch _ _ _ => none
  | argumentCount _ _ _ => none

/-- Two sequences of tokens that begin with the same tokens, up to a limit. -/
structure Twins where
  first : List Token
  second : List Token
  limit : Nat
  agree : second.take limit = first.take limit

namespace Twins

theorem peek?_second (twins : Twins) {start : Nat} (early : start < twins.limit) :
    (past twins.second start).peek? = (past twins.first start).peek? := by
  rw [Cursor.peek?_past, Cursor.peek?_past, ← List.getElem?_take_of_lt early, twins.agree,
    List.getElem?_take_of_lt early]

theorem advance_second (twins : Twins) {start : Nat} {token : Token}
    (isNext : (past twins.first start).peek? = some token) (early : start < twins.limit) :
    (past twins.second start).advance = past twins.second (start + 1) :=
  Cursor.advance_past ((twins.peek?_second early).trans isNext)

/-- What is read from token `start` on is the same in both sequences, if reading stopped before the
limit. -/
def Alike (twins : Twins) {α : Type} (start : Nat) (result other : Except Fault (Parsed α)) :
    Prop :=
  match result with
  | .ok (a, after) => ∃ stop, start ≤ stop ∧ after = past twins.first stop ∧
      (stop < twins.limit → other = .ok (a, past twins.second stop))
  | .error fault => ∀ position, fault.syntaxPosition? = some position →
      start ≤ position ∧ (position < twins.limit → other = .error fault)

namespace Alike

variable {twins : Twins} {α β γ : Type} {start stop : Nat} {result other : Except Fault (Parsed α)}

theorem ok (a : α) (onward : start ≤ stop) :
    twins.Alike start (.ok (a, past twins.first stop)) (.ok (a, past twins.second stop)) :=
  ⟨stop, onward, rfl, fun _ => rfl⟩

theorem here (a : α) :
    twins.Alike start (.ok (a, past twins.first start)) (.ok (a, past twins.second start)) :=
  ok a (Nat.le_refl start)

/-- Faults that are no faults of syntax may depend on anything. -/
theorem silent {fault : Fault} (isSilent : fault.syntaxPosition? = none) :
    twins.Alike start (.error fault) other := by
  intro position isAt
  rw [isSilent] at isAt
  cases isAt

theorem fault {fault : Fault} (isAt : fault.syntaxPosition? = some stop) (onward : start ≤ stop) :
    twins.Alike start ((.error fault : Except Fault (Parsed α))) (.error fault) := by
  intro position isAt'
  rw [isAt] at isAt'
  cases isAt'
  exact ⟨onward, fun _ => rfl⟩

theorem mono (alike : twins.Alike stop result other) (onward : start ≤ stop) :
    twins.Alike start result other := by
  match result, alike with
  | .ok (a, after), ⟨stop', le, isStop, same⟩ =>
      exact ⟨stop', Nat.le_trans onward le, isStop, same⟩
  | .error fault, alike =>
      exact fun position isAt =>
        ⟨Nat.le_trans onward (alike position isAt).1, (alike position isAt).2⟩

/-- Behind the limit it does not matter what the second sequence gives. -/
theorem of_early {other' : Except Fault (Parsed α)} (same : start < twins.limit → other = other')
    (alike : twins.Alike start result other') : twins.Alike start result other := by
  match result, alike with
  | .ok (a, after), ⟨stop, le, isStop, same'⟩ =>
      exact ⟨stop, le, isStop, fun early => (same (by omega)).trans (same' early)⟩
  | .error fault, alike =>
      intro position isAt
      obtain ⟨le, same'⟩ := alike position isAt
      exact ⟨le, fun early => (same (by omega)).trans (same' early)⟩

theorem bind {next next' : Parsed α → Except Fault (Parsed β)}
    (alike : twins.Alike start result other)
    (onward : ∀ a stop, start ≤ stop →
      twins.Alike stop (next (a, past twins.first stop)) (next' (a, past twins.second stop))) :
    twins.Alike start (result >>= next) (other >>= next') := by
  match result, alike with
  | .ok (a, after), ⟨stop, le, isStop, same⟩ =>
      subst isStop
      have same' (early : stop < twins.limit) :
          other >>= next' = next' (a, past twins.second stop) := by
        rw [same early]
        rfl
      exact mono (of_early same' (onward a stop le)) le
  | .error fault, alike =>
      intro position isAt
      obtain ⟨le, same⟩ := alike position isAt
      refine ⟨le, fun early => ?_⟩
      rw [same early]
      rfl

/-- Faults of what is no reader are no faults of syntax. -/
theorem bind_silent {value : Except Fault γ} {next next' : γ → Except Fault (Parsed β)}
    (isSilent : ∀ fault, value = .error fault → fault.syntaxPosition? = none)
    (onward : ∀ c, twins.Alike start (next c) (next' c)) :
    twins.Alike start (value >>= next) (value >>= next') := by
  cases value with
  | ok c => exact onward c
  | error fault => exact silent (isSilent fault rfl)

/-- A bound that suffices for the tokens from the next one on is a bound for those behind it and one
more. -/
theorem round {token : Token} (isNext : (past twins.first start).peek? = some token)
    (read read' : Nat → Cursor Token → Except Fault (Parsed α)) {bound bound' : Nat}
    (within : twins.first.length - start ≤ bound) (within' : twins.second.length - start ≤ bound')
    (alike : ∀ less less', twins.first.length - (start + 1) ≤ less →
      twins.second.length - (start + 1) ≤ less' →
      twins.Alike start (read (less + 1) (past twins.first start))
        (read' (less' + 1) (past twins.second start))) :
    twins.Alike start (read bound (past twins.first start))
      (read' bound' (past twins.second start)) := by
  have inside := Cursor.lt_of_peek?_past isNext
  obtain ⟨less, rfl⟩ : ∃ less, bound = less + 1 := ⟨bound - 1, by omega⟩
  apply of_early _ (alike less (bound' - 1) (by omega) (by omega))
  intro early
  have inside' := Cursor.lt_of_peek?_past ((twins.peek?_second early).trans isNext)
  rw [Nat.sub_add_cancel (by omega)]

theorem take {token : Token} (isNext : (past twins.first start).peek? = some token)
    (read read' : Cursor Token → Except Fault (Parsed α))
    (alike : twins.Alike start (read ⟨token :: twins.first.drop (start + 1), start⟩)
      (read' ⟨token :: twins.second.drop (start + 1), start⟩)) :
    twins.Alike start (read (past twins.first start)) (read' (past twins.second start)) := by
  rw [Cursor.past_of_peek? isNext]
  apply of_early _ alike
  intro early
  rw [Cursor.past_of_peek? ((twins.peek?_second early).trans isNext)]

end Alike

/-- Two readers give the same from any token on, `origin` or one behind it. -/
def IsAlike (twins : Twins) (origin : Nat) (read read' : Parser) : Prop :=
  ∀ start, origin ≤ start →
    twins.Alike start (read (past twins.first start)) (read' (past twins.second start))

end Twins

open Twins (Alike)

theorem operand_silent {k : Kind} {start : Nat} {e : Tree} (fault : Fault)
    (failed : operand k start e = .error fault) : fault.syntaxPosition? = none := by
  unfold operand at failed
  cases narrowed : e.narrow k with
  | ok e' =>
      rw [narrowed] at failed
      cases failed
  | error found =>
      rw [narrowed] at failed
      cases failed
      rfl

section

variable {bound : Nat} {run : List (Expr Float (some .number))} {c : Cursor Token}

theorem factors_of_noSign {unary : Parser} (noSign : ¬isFactorSign c.peek? = true) :
    factors unary bound run c = .ok (ofRun .product run, c) := by
  cases bound with
  | zero => rfl
  | succ bound => rw [factors, if_neg noSign]

theorem terms_of_noSign {unary : Parser} (noSign : c.peek?.bind termSign? = none) :
    terms unary bound run c = .ok (ofRun .sum run, c) := by
  cases bound with
  | zero => rfl
  | succ bound => rw [terms, noSign]

theorem moreOperands_of_noOperator {op : Logical} {part : Parser}
    (noOperator : ¬isLogical op c.peek? = true) : moreOperands op part bound c = .ok ([], c) := by
  cases bound with
  | zero => rfl
  | succ bound => rw [moreOperands, if_neg noOperator]

theorem moreOperands_of_operator {op : Logical} {part : Parser} {spelling : Spelling}
    (isNext : c.peek? = some (.logical op spelling)) :
    moreOperands op part (bound + 1) c = (do
      let (e, after) ← part c.advance
      let e ← operand .boolean c.advance.position e
      let (rest, final) ← moreOperands op part bound after
      return (e :: rest, final)) := by
  rw [moreOperands, if_pos (isLogical_iff.2 ⟨spelling, isNext⟩)]

end

section

variable {twins : Twins} {origin : Nat} {unary unary' : Parser}
  (isAlike : twins.IsAlike origin unary unary')

include isAlike

/-- The two loops may have different bounds, so the induction is on the tokens that are left. -/
theorem factors_alike {bound bound' start : Nat} {run : List (Expr Float (some .number))}
    (inside : origin ≤ start) (within : twins.first.length - start ≤ bound)
    (within' : twins.second.length - start ≤ bound') :
    twins.Alike start (factors unary bound run (past twins.first start))
      (factors unary' bound' run (past twins.second start)) := by
  induction length : twins.first.length - start using Nat.strongRecOn
    generalizing bound bound' start run with
  | ind length ih =>
      by_cases isSign : isFactorSign (past twins.first start).peek? = true
      · obtain ⟨direction, isNext⟩ := isFactorSign_iff.1 isSign
        have some := Cursor.lt_of_peek?_past isNext
        apply Alike.round isNext (factors unary · run) (factors unary' · run) within within'
        intro less less' within within'
        apply Alike.take isNext (factors unary (less + 1) run) (factors unary' (less' + 1) run)
        rw [factors_of_sign (c := ⟨direction.factorSign :: _, start⟩) rfl,
          factors_of_sign (c := ⟨direction.factorSign :: _, start⟩) rfl]
        refine ((isAlike (start + 1) (by omega)).bind fun e stop onward => ?_).mono (by omega)
        refine Alike.bind_silent operand_silent fun right => ?_
        exact ih _ (by omega) (by omega) (by omega) (by omega) rfl
      · rw [factors_of_noSign isSign]
        refine Alike.of_early (fun early => factors_of_noSign ?_) (.here _)
        rwa [twins.peek?_second early]

theorem factorsAfter_alike {position start : Nat} {first : Tree} (inside : origin ≤ start) :
    twins.Alike start (factorsAfter unary position first (past twins.first start))
      (factorsAfter unary' position first (past twins.second start)) := by
  unfold factorsAfter
  apply Alike.of_early fun early => by rw [twins.peek?_second early]
  split
  · refine Alike.bind_silent operand_silent fun left => ?_
    refine (factors_alike isAlike inside ?_ ?_).bind fun e stop _ => .here _
    · exact Cursor.le_length_past _ _
    · exact Cursor.le_length_past _ _
  · exact .here _

theorem multiplicative_alike :
    twins.IsAlike origin (multiplicative unary) (multiplicative unary') := by
  intro start inside
  refine (isAlike start inside).bind fun first stop onward => ?_
  exact factorsAfter_alike isAlike (Nat.le_trans inside onward)

theorem term_alike (sign : TermSign) (token : Token) {start : Nat} (inside : origin ≤ start + 1) :
    twins.Alike (start + 1) (term unary sign ⟨token :: twins.first.drop (start + 1), start⟩)
      (term unary' sign ⟨token :: twins.second.drop (start + 1), start⟩) := by
  cases sign with
  | minusNumber x =>
      refine (factorsAfter_alike isAlike inside).bind fun e stop _ => ?_
      exact Alike.bind_silent operand_silent fun right => .here _
  | plus =>
      refine (multiplicative_alike isAlike _ inside).bind fun e stop _ => ?_
      exact Alike.bind_silent operand_silent fun right => .here _
  | minus =>
      refine (multiplicative_alike isAlike _ inside).bind fun e stop _ => ?_
      exact Alike.bind_silent operand_silent fun right => .here _

theorem terms_alike {bound bound' start : Nat} {run : List (Expr Float (some .number))}
    (inside : origin ≤ start) (within : twins.first.length - start ≤ bound)
    (within' : twins.second.length - start ≤ bound') :
    twins.Alike start (terms unary bound run (past twins.first start))
      (terms unary' bound' run (past twins.second start)) := by
  induction length : twins.first.length - start using Nat.strongRecOn
    generalizing bound bound' start run with
  | ind length ih =>
      cases isSign : (past twins.first start).peek?.bind termSign? with
      | some sign =>
          obtain ⟨token, isNext, isSign⟩ := Option.bind_eq_some_iff.1 isSign
          have some := Cursor.lt_of_peek?_past isNext
          apply Alike.round isNext (terms unary · run) (terms unary' · run) within within'
          intro less less' within within'
          apply Alike.take isNext (terms unary (less + 1) run) (terms unary' (less' + 1) run)
          rw [terms_of_sign (c := ⟨token :: _, start⟩) isSign,
            terms_of_sign (c := ⟨token :: _, start⟩) isSign]
          refine ((term_alike isAlike sign token (by omega)).bind fun right stop onward => ?_).mono
            (by omega)
          exact ih _ (by omega) (by omega) (by omega) (by omega) rfl
      | none =>
          rw [terms_of_noSign isSign]
          refine Alike.of_early (fun early => terms_of_noSign ?_) (.here _)
          rwa [twins.peek?_second early]

theorem additive_alike : twins.IsAlike origin (additive unary) (additive unary') := by
  intro start inside
  refine (multiplicative_alike isAlike start inside).bind fun first stop onward => ?_
  dsimp only
  apply Alike.of_early fun early => by rw [twins.peek?_second early]
  split
  · exact .here _
  · refine Alike.bind_silent operand_silent fun left => ?_
    refine (terms_alike isAlike (Nat.le_trans inside onward) ?_ ?_).bind fun e stop _ => .here _
    · exact Cursor.le_length_past _ _
    · exact Cursor.le_length_past _ _

theorem relational_alike : twins.IsAlike origin (relational unary) (relational unary') := by
  intro start inside
  refine (additive_alike isAlike start inside).bind fun left stop onward => ?_
  dsimp only
  apply Alike.of_early fun early => by rw [twins.peek?_second early]
  split
  · exact .here _
  · rename_i op isOperator
    obtain ⟨token, isNext, -⟩ := Option.bind_eq_some_iff.1 isOperator
    refine Alike.bind_silent operand_silent fun l => ?_
    rw [Cursor.advance_past isNext]
    apply Alike.of_early fun early => by rw [twins.advance_second isNext early]
    refine ((additive_alike isAlike (stop + 1) (by omega)).bind fun right final _ => ?_).mono
      (Nat.le_succ stop)
    exact Alike.bind_silent operand_silent fun r => .here _

theorem equality_alike : twins.IsAlike origin (equality unary) (equality unary') := by
  intro start inside
  refine (relational_alike isAlike start inside).bind fun left stop onward => ?_
  dsimp only
  apply Alike.of_early fun early => by rw [twins.peek?_second early]
  split
  · rename_i isNext
    rw [Cursor.advance_past isNext]
    apply Alike.of_early fun early => by rw [twins.advance_second isNext early]
    refine ((relational_alike isAlike (stop + 1) (by omega)).bind fun right final _ => ?_).mono
      (Nat.le_succ stop)
    exact .here _
  · exact .here _

end

section

variable {twins : Twins} {origin : Nat} {op : Logical} {part part' : Parser}
  (isAlike : twins.IsAlike origin part part')

include isAlike

theorem moreOperands_alike {bound bound' start : Nat} (inside : origin ≤ start)
    (within : twins.first.length - start ≤ bound)
    (within' : twins.second.length - start ≤ bound') :
    twins.Alike start (moreOperands op part bound (past twins.first start))
      (moreOperands op part' bound' (past twins.second start)) := by
  induction length : twins.first.length - start using Nat.strongRecOn
    generalizing bound bound' start with
  | ind length ih =>
      by_cases isOperator : isLogical op (past twins.first start).peek? = true
      · obtain ⟨spelling, isNext⟩ := isLogical_iff.1 isOperator
        have some := Cursor.lt_of_peek?_past isNext
        apply Alike.round isNext (moreOperands op part) (moreOperands op part') within within'
        intro less less' within within'
        apply Alike.take isNext (moreOperands op part (less + 1))
          (moreOperands op part' (less' + 1))
        rw [moreOperands_of_operator (c := ⟨.logical op spelling :: _, start⟩) rfl,
          moreOperands_of_operator (c := ⟨.logical op spelling :: _, start⟩) rfl]
        refine ((isAlike (start + 1) (by omega)).bind fun e stop onward => ?_).mono (by omega)
        refine Alike.bind_silent operand_silent fun e => ?_
        refine (ih _ (by omega) (by omega) (by omega) (by omega) rfl).bind fun rest final _ => ?_
        exact .here _
      · rw [moreOperands_of_noOperator isOperator]
        refine Alike.of_early (fun early => moreOperands_of_noOperator ?_) (.here _)
        rwa [twins.peek?_second early]

theorem junction_alike : twins.IsAlike origin (junction op part) (junction op part') := by
  intro start inside
  refine (isAlike start inside).bind fun first stop onward => ?_
  dsimp only
  apply Alike.of_early fun early => by rw [twins.peek?_second early]
  split
  · refine Alike.bind_silent operand_silent fun left => ?_
    have inside' := Nat.le_trans inside onward
    refine (moreOperands_alike isAlike inside' ?_ ?_).bind fun operands final _ => .here _
    · exact Cursor.le_length_past _ _
    · exact Cursor.le_length_past _ _
  · exact .here _

end

theorem reader_alike {twins : Twins} {origin : Nat} {unary unary' : Parser}
    (isAlike : twins.IsAlike origin unary unary') (level : Level) :
    twins.IsAlike origin (reader unary level) (reader unary' level) :=
  match level with
  | .or => junction_alike (junction_alike (equality_alike isAlike))
  | .and => junction_alike (equality_alike isAlike)
  | .equality => equality_alike isAlike
  | .comparison => relational_alike isAlike
  | .sum => additive_alike isAlike
  | .product => multiplicative_alike isAlike
  | .unary => isAlike
  | .primary => isAlike

theorem expect_alike {twins : Twins} {α : Type} {start : Nat} (expected : Token) (wanted : Wanted)
    {next next' : Cursor Token → Except Fault (Parsed α)}
    (alike : twins.Alike (start + 1) (next (past twins.first (start + 1)))
      (next' (past twins.second (start + 1)))) :
    twins.Alike start (expect expected wanted (past twins.first start) >>= next)
      (expect expected wanted (past twins.second start) >>= next') := by
  unfold expect
  apply Alike.of_early fun early => by rw [twins.peek?_second early]
  cases isNext : (past twins.first start).peek? with
  | none => exact .silent rfl
  | some found =>
      dsimp only
      rw [Cursor.advance_past isNext]
      apply Alike.of_early fun early => by rw [twins.advance_second isNext early]
      split
      · exact alike.mono (Nat.le_succ start)
      · exact .fault rfl (Nat.le_refl _)

section

variable {twins : Twins} {origin : Nat} {whole whole' : Parser}
  (isAlike : twins.IsAlike origin whole whole')
  (atEnd : ∀ {c : Cursor Token}, c.peek? = none → whole c = .error (.unexpectedEnd .expression))

include isAlike atEnd

theorem moreArguments_alike {bound bound' start : Nat} (inside : origin ≤ start)
    (within : twins.first.length - start ≤ bound)
    (within' : twins.second.length - start ≤ bound') :
    twins.Alike start (moreArguments whole bound (past twins.first start))
      (moreArguments whole' bound' (past twins.second start)) := by
  induction length : twins.first.length - start using Nat.strongRecOn
    generalizing bound bound' start with
  | ind length ih =>
      cases isNext : (past twins.first start).peek? with
      | none =>
          -- The bounds may leave a round for one sequence only; `whole` fails there as well.
          cases bound with
          | zero => exact .silent rfl
          | succ bound =>
              rw [moreArguments, atEnd isNext]
              exact .silent rfl
      | some token =>
          have some := Cursor.lt_of_peek?_past isNext
          apply Alike.round isNext (moreArguments whole) (moreArguments whole') within within'
          intro less less' within within'
          rw [moreArguments, moreArguments]
          refine (isAlike start inside).bind fun e stop onward => ?_
          dsimp only
          apply Alike.of_early fun early => by rw [twins.peek?_second early]
          split
          · rename_i isComma
            rw [Cursor.advance_past isComma]
            apply Alike.of_early fun early => by rw [twins.advance_second isComma early]
            apply Alike.mono _ (Nat.le_succ stop)
            apply Alike.bind
            · exact ih _ (by omega) (by omega) (by omega) (by omega) rfl
            · exact fun rest final _ => .here _
          · rename_i isClosing
            rw [Cursor.advance_past isClosing]
            apply Alike.of_early fun early => by rw [twins.advance_second isClosing early]
            exact .ok _ (Nat.le_succ stop)
          · exact .fault rfl (Nat.le_refl _)
          · exact .silent rfl

theorem arguments_alike {start : Nat} (inside : origin ≤ start) :
    twins.Alike start (arguments whole (past twins.first start))
      (arguments whole' (past twins.second start)) := by
  unfold arguments
  apply expect_alike
  apply Alike.of_early fun early => by rw [twins.peek?_second early]
  split
  · rename_i isNext
    rw [Cursor.advance_past isNext]
    apply Alike.of_early fun early => by rw [twins.advance_second isNext early]
    exact .ok _ (Nat.le_succ _)
  · exact moreArguments_alike isAlike atEnd (by omega) (Cursor.le_length_past _ _)
      (Cursor.le_length_past _ _)

end

theorem exists_of_mapM_eq_error {α β ε : Type} {f : α → Except ε β} {as : List α} {fault : ε}
    (failed : as.mapM f = .error fault) : ∃ a ∈ as, f a = .error fault := by
  induction as with
  | nil => cases failed
  | cons a as ih =>
      rw [List.mapM_cons] at failed
      cases first : f a with
      | error fault' =>
          rw [first] at failed
          cases failed
          exact ⟨a, List.mem_cons_self, first⟩
      | ok b =>
          cases rest : as.mapM f with
          | error fault' =>
              rw [first, rest] at failed
              cases failed
              obtain ⟨a', isIn, failed'⟩ := ih rest
              exact ⟨a', List.mem_cons_of_mem a isIn, failed'⟩
          | ok bs =>
              rw [first, rest] at failed
              cases failed

theorem call_silent {function : Function} {position : Nat} {args : List (Nat × Tree)}
    (fault : Fault) (failed : call function position args = .error fault) :
    fault.syntaxPosition? = none := by
  unfold call at failed
  split at failed
  · cases failed
    rfl
  · obtain failed | ⟨operands, -, same⟩ := bind_eq_error.1 failed
    · obtain ⟨arg, -, failed⟩ := exists_of_mapM_eq_error failed
      exact operand_silent fault failed
    · cases same
  · obtain failed | ⟨array, -, same⟩ := bind_eq_error.1 failed
    · exact operand_silent fault failed
    · cases same
  · cases failed
    rfl

theorem unary_atEnd (bound : Nat) {c : Cursor Token} (isEnd : c.peek? = none) :
    unary bound c = .error (.unexpectedEnd .expression) := by
  cases bound with
  | zero => rfl
  | succ bound => rw [unary, isEnd]

theorem expression_atEnd {unary : Parser} {c : Cursor Token}
    (atEnd : unary c = .error (.unexpectedEnd .expression)) :
    expression unary c = .error (.unexpectedEnd .expression) := by
  simp only [expression, junction, equality, relational, additive, multiplicative, atEnd]
  rfl

theorem unary_alike (twins : Twins) {bound bound' origin : Nat}
    (within : twins.first.length - origin ≤ bound)
    (within' : twins.second.length - origin ≤ bound') :
    twins.IsAlike origin (unary bound) (unary bound') := by
  induction length : twins.first.length - origin using Nat.strongRecOn
    generalizing bound bound' origin with
  | ind length ih =>
      intro start inside
      cases isNext : (past twins.first start).peek? with
      | none =>
          rw [unary_atEnd _ isNext]
          exact .silent rfl
      | some token =>
          have inside' := Cursor.lt_of_peek?_past isNext
          apply Alike.round isNext unary unary (by omega) (by omega)
          intro less less' within within'
          have isAlike : twins.IsAlike (start + 1) (unary less) (unary less') :=
            ih _ (by omega) within within' rfl
          have onward := Nat.le_refl (start + 1)
          apply Alike.take isNext (unary (less + 1)) (unary (less' + 1))
          unfold unary
          cases token with
          | minus =>
              refine ((isAlike _ onward).bind fun e stop _ => ?_).mono (Nat.le_succ start)
              exact Alike.bind_silent operand_silent fun e => .here _
          | not =>
              refine ((isAlike _ onward).bind fun e stop _ => ?_).mono (Nat.le_succ start)
              exact Alike.bind_silent operand_silent fun e => .here _
          | number x => exact .ok _ (Nat.le_succ start)
          | boolean b => exact .ok _ (Nat.le_succ start)
          | string s => exact .ok _ (Nat.le_succ start)
          | path p =>
              apply Alike.mono _ (Nat.le_succ start)
              show twins.Alike (start + 1)
                (if (past twins.first (start + 1)).peek? = some .otherwise then _ else _)
                (if (past twins.second (start + 1)).peek? = some .otherwise then _ else _)
              apply Alike.of_early fun early => by rw [twins.peek?_second early]
              split
              · rename_i isOtherwise
                show twins.Alike (start + 1)
                  (unary less (past twins.first (start + 1)).advance >>= _)
                  (unary less' (past twins.second (start + 1)).advance >>= _)
                rw [Cursor.advance_past isOtherwise]
                apply Alike.of_early fun early => by rw [twins.advance_second isOtherwise early]
                refine ((isAlike _ (Nat.le_succ _)).bind fun d stop _ => ?_).mono (Nat.le_succ _)
                exact .here _
              · exact .here _
          | leftParen =>
              refine ((reader_alike isAlike .or _ onward).bind fun e stop _ => ?_).mono
                (Nat.le_succ start)
              exact expect_alike _ _ (.here _)
          | function f =>
              refine ((arguments_alike (reader_alike isAlike .or) (fun isEnd =>
                expression_atEnd (unary_atEnd less isEnd)) onward).bind fun args stop _ => ?_).mono
                  (Nat.le_succ start)
              exact Alike.bind_silent call_silent fun e => .here _
          | _ => exact .fault rfl (Nat.le_refl _)

/-- A fault of syntax depends on no token behind the one that it reports. -/
theorem ofTokens_fault_local {tokens other : List Token} {fault : Fault} {position : Nat}
    (isAt : fault.syntaxPosition? = some position)
    (agree : other.take (position + 1) = tokens.take (position + 1))
    (failed : ofTokens tokens = .error fault) : ofTokens other = .error fault := by
  let twins : Twins := ⟨tokens, other, position + 1, agree⟩
  have isAlike : twins.IsAlike 0 (unary tokens.length) (unary other.length) :=
    unary_alike twins (Nat.le_refl _) (Nat.le_refl _)
  have alike : twins.Alike 0 (expression (unary tokens.length) (Cursor.ofList tokens))
      (expression (unary other.length) (Cursor.ofList other)) :=
    reader_alike isAlike .or 0 (Nat.le_refl 0)
  unfold ofTokens at failed ⊢
  obtain failed | ⟨⟨e, after⟩, read, failed⟩ := bind_eq_error.1 failed
  · rw [failed] at alike
    exact bind_eq_error.2 (.inl ((alike position isAt).2 (Nat.lt_succ_self position)))
  · rw [read] at alike
    obtain ⟨stop, -, rfl, same⟩ := alike
    dsimp only at failed
    split at failed
    · cases failed
    · rename_i found isNext
      cases failed
      obtain rfl : stop = position := Option.some.inj isAt
      have early : stop < twins.limit := Nat.lt_succ_self stop
      have isNext' := (twins.peek?_second early).trans isNext
      refine bind_eq_error.2 (.inr ⟨_, same early, ?_⟩)
      dsimp only
      rw [isNext']
      rfl

def Longest (level : Level) (phrase behind : List Token) : Prop :=
  ∀ more, more ≠ [] → more <+: behind → ∀ e, ¬Derives level (phrase ++ more) e

theorem longest_of_read {level : Level} {tokens before run : List Token} {bound : Nat} {e : Tree}
    {c after : Cursor Token} (here : Cursor.Reads before (Cursor.ofList tokens) c)
    (enough : c.rest.length ≤ bound) (reads : Cursor.Reads run c after)
    (read : reader (unary bound) level c = .ok (e, after)) : Longest level run after.rest := by
  rintro more some ⟨rest, isRest⟩ e' phrase
  obtain ⟨isTokens, position⟩ : Cursor.Reads (before ++ run) (Cursor.ofList tokens) after :=
    here.append reads
  have isSecond : tokens = before ++ (run ++ more) ++ rest := by
    rw [← List.append_assoc before, List.append_assoc _ more, isRest]
    exact isTokens
  -- Without the tokens behind the longer phrase, the reader would take all of it.
  let twins : Twins := ⟨tokens, before ++ (run ++ more), (before ++ (run ++ more)).length, by
    rw [isSecond, List.take_left, List.take_length]⟩
  have alike : twins.Alike before.length (reader (unary bound) level (past tokens before.length))
      (reader (unary (run ++ more).length) level (past twins.second before.length)) := by
    apply reader_alike _ level _ (Nat.le_refl _)
    apply unary_alike twins
    · rw [← List.length_drop]
      rw [Cursor.eq_past here] at enough
      exact enough
    · simp only [twins, List.length_append, Nat.add_sub_cancel_left, Nat.le_refl]
  rw [← Cursor.eq_past here, read] at alike
  obtain ⟨stop, -, rfl, same⟩ := alike
  have whole := read_of_derives phrase (run ++ more).length before.length [] (by simp) (stops_nil _)
  have isPast : past twins.second before.length = ⟨run ++ more ++ [], before.length⟩ := by
    rw [past, List.drop_left, List.append_nil]
  have isStop : stop = before.length + run.length := by
    rw [← List.length_append]
    exact position.trans (Nat.zero_add _)
  have longer : 0 < more.length := List.length_pos_iff.2 some
  have early : stop < (before ++ (run ++ more)).length := by
    simp only [isStop, List.length_append]
    omega
  have read' := same early
  rw [isPast, whole, Except.ok.injEq, Prod.mk.injEq] at read'
  have isStop' : before.length + (run ++ more).length = stop := congrArg Cursor.position read'.2
  rw [isStop, List.length_append] at isStop'
  omega

end Expr

end PathExpr
