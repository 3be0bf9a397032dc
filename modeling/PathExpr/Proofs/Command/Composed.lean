import PathExpr.Command.Basic
import PathExpr.Json.Reader
import PathExpr.Proofs.RoundTrip.Compiled

set_option autoImplicit false

namespace PathExpr.Command

/-- Two expressions that no command tells apart. -/
def Interchangeable (d e : Expr.Tree) : Prop :=
  d.text = e.text ∧ ∀ ctx : Context Float, d.evaluate ctx = e.evaluate ctx

variable {N ε : Type}

theorem build_eq_ok_iff {text : String} {normalize : Bool} {e : Expr.Tree} :
    (build text normalize : Except (Fault ε) Expr.Tree) = .ok e ↔
      (if normalize then Expr.compile text else Expr.parse text) = .ok e := Expr.mapError_eq_ok

/-- An expression that was written is read as one that cannot be told from the one that is built
with the constants folded if they are folded before or after writing. -/
theorem build_text {text : String} {first second : Bool} {e : Expr.Tree}
    (built : (build text first : Except (Fault ε) Expr.Tree) = .ok e) :
    ∃ again direct, (build e.text second : Except (Fault ε) Expr.Tree) = .ok again ∧
      (build text (first || second) : Except (Fault ε) Expr.Tree) = .ok direct ∧
        Interchangeable again direct := by
  simp only [build_eq_ok_iff] at built ⊢
  cases first with
  | false =>
      have parsed : Expr.parse text = .ok e := built
      have read := Expr.parse_of_canonical (Expr.canonical_of_parse parsed)
      cases second with
      | false => exact ⟨e, e, read, parsed, rfl, fun _ => rfl⟩
      | true =>
          exact ⟨e.normalize, e.normalize, Expr.compile_eq_ok_iff.2 ⟨e, read, rfl⟩,
            Expr.compile_eq_ok_iff.2 ⟨e, parsed, rfl⟩, rfl, fun _ => rfl⟩
  | true =>
      have compiled : Expr.compile text = .ok e := built
      obtain ⟨read, again, same⟩ := Expr.compiled_spelled compiled
      cases second with
      | false => exact ⟨e.spelled, e, read, compiled, e.text_spelled, same⟩
      | true =>
          exact ⟨e, e, Expr.compile_eq_ok_iff.2 ⟨e.spelled, read, again⟩, compiled, rfl,
            fun _ => rfl⟩

theorem check_eq_ok_iff {text written : String} {normalize : Bool} :
    (check text normalize : Except (Fault ε) String) = .ok written ↔
      ∃ e, (build text normalize : Except (Fault ε) Expr.Tree) = .ok e ∧ e.text = written :=
  Expr.map_eq_ok

theorem evaluate_of_build [Json.Numbers N] {text text' : String} {normalize normalize' : Bool}
    {d e : Expr.Tree} (first : (build text normalize : Except (Fault ε) Expr.Tree) = .ok d)
    (second : (build text' normalize' : Except (Fault ε) Expr.Tree) = .ok e)
    (same : ∀ ctx : Context Float, d.evaluate ctx = e.evaluate ctx)
    (read : String → Except ε (Json N)) (input : Option String) :
    evaluate read text input normalize = evaluate read text' input normalize' := by
  unfold evaluate
  rw [first, second]
  simp only [bind, Except.bind, same]

/-- What was checked is checked and evaluated as the expression itself, with its constants folded if
either command folds them. It does not matter which documents the reader accepts, what it makes of
them and which error it gives otherwise. -/
theorem check_then_check_or_evaluate [Json.Numbers N] (read : String → Except ε (Json N))
    {text written : String} {first second : Bool}
    (checked : (check text first : Except (Fault ε) String) = .ok written) :
    (∀ input, evaluate read written input second = evaluate read text input (first || second)) ∧
      (check written second : Except (Fault ε) String) = check text (first || second) := by
  obtain ⟨e, built, rfl⟩ := check_eq_ok_iff.1 checked
  obtain ⟨again, direct, isRead, compiled, sameText, sameResults⟩ := build_text built
  refine ⟨evaluate_of_build isRead compiled sameResults read, ?_⟩
  rw [check, check, isRead, compiled]
  show Except.ok again.text = Except.ok direct.text
  rw [sameText]

/-- Constants folded to negative infinity, which is written as a division. -/
theorem check_then_evaluate_negative_infinity :
    (check "(0 - (1 / 0))" true : Except (Fault Json.ReadFault) String) = .ok "(-1 / 0)" ∧
      (∀ input ∈ [none, some "[1, 2", some "{}"],
        evaluate Json.parse "(-1 / 0)" input false =
          evaluate Json.parse "(0 - (1 / 0))" input true) ∧
      (check "(-1 / 0)" false : Except (Fault Json.ReadFault) String) =
        check "(0 - (1 / 0))" true := by
  let c : Expr.Tree := .typed (.subtract (.number 0) (.divide (.number 1) (.number 0)))
  have canonical : Expr.Canonical c := by
    refine .typed rfl (.subtract (.number ?_) (.divide (.number ?_) (.number ?_))) <;>
      decide +kernel
  have spelled : c.text = "(0 - (1 / 0))" := by decide +kernel
  have folded : c.normalize.text = "(-1 / 0)" := by decide +kernel
  have compiled := Expr.compile_of_canonical canonical
  rw [spelled] at compiled
  have checked : (check "(0 - (1 / 0))" true : Except (Fault Json.ReadFault) String) =
      .ok "(-1 / 0)" :=
    check_eq_ok_iff.2 ⟨c.normalize, build_eq_ok_iff.2 compiled, folded⟩
  obtain ⟨evaluated, checkedAgain⟩ :=
    @check_then_check_or_evaluate _ _ _ Json.parse _ _ true false checked
  exact ⟨checked, fun input _ => evaluated input, checkedAgain⟩

end PathExpr.Command
