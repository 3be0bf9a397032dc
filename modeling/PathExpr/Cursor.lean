set_option autoImplicit false

namespace PathExpr

/-- What is left to read, and the number of elements read before it. -/
structure Cursor (α : Type) where
  rest : List α
  position : Nat
deriving Repr, DecidableEq

namespace Cursor

variable {α : Type}

def ofList (items : List α) : Cursor α := ⟨items, 0⟩

def peek? (c : Cursor α) : Option α := c.rest.head?

def isDone (c : Cursor α) : Bool := c.rest.isEmpty

/-- Moves past one element. At the end it stays where it is. -/
def advance (c : Cursor α) : Cursor α :=
  match c.rest with
  | [] => c
  | _ :: rest => ⟨rest, c.position + 1⟩

def next (c : Cursor α) : Option α × Cursor α := (c.peek?, c.advance)

/-- Reads the longest run of elements that satisfy `p`. -/
def span (p : α → Bool) (c : Cursor α) : List α × Cursor α :=
  let run := c.rest.takeWhile p
  (run, ⟨c.rest.dropWhile p, c.position + run.length⟩)

@[simp] theorem advance_cons (x : α) (rest : List α) (position : Nat) :
    (Cursor.mk (x :: rest) position).advance = ⟨rest, position + 1⟩ := rfl

/-- Reading `run` takes the first cursor to the second. -/
def Reads (run : List α) (first second : Cursor α) : Prop :=
  first.rest = run ++ second.rest ∧ second.position = first.position + run.length

/-- The second cursor is the first one or further along the same sequence. -/
def Reaches (first second : Cursor α) : Prop := ∃ run, Reads run first second

theorem Reads.refl (c : Cursor α) : Reads [] c c := ⟨rfl, rfl⟩

theorem Reads.append {before after : List α} {first second third : Cursor α}
    (left : Reads before first second) (right : Reads after second third) :
    Reads (before ++ after) first third := by
  obtain ⟨rest, position⟩ := left
  obtain ⟨rest', position'⟩ := right
  constructor
  · rw [rest, rest', List.append_assoc]
  · rw [position', position, List.length_append, Nat.add_assoc]

theorem Reaches.refl (c : Cursor α) : c.Reaches c := ⟨[], Reads.refl c⟩

theorem Reaches.trans {first second third : Cursor α} (left : first.Reaches second)
    (right : second.Reaches third) : first.Reaches third := by
  obtain ⟨before, read⟩ := left
  obtain ⟨after, read'⟩ := right
  exact ⟨before ++ after, read.append read'⟩

theorem Reaches.length_le {first second : Cursor α} (reached : first.Reaches second) :
    second.rest.length ≤ first.rest.length := by
  obtain ⟨run, rest, _⟩ := reached
  rw [rest, List.length_append]
  omega

theorem reads_advance {c : Cursor α} {x : α} {rest : List α} (isCons : c.rest = x :: rest) :
    Reads [x] c c.advance := by
  simp only [Reads, advance, isCons, List.cons_append, List.nil_append, List.length_cons,
    List.length_nil, and_self]

theorem reaches_advance (c : Cursor α) : c.Reaches c.advance := by
  match isCons : c.rest with
  | [] =>
      have same : c.advance = c := by simp only [advance, isCons]
      rw [same]
      exact Reaches.refl c
  | x :: rest => exact ⟨[x], reads_advance isCons⟩

/-- No element is lost: what was read and what is left make up what was there. -/
theorem reads_span (p : α → Bool) (c : Cursor α) : Reads (c.span p).1 c (c.span p).2 :=
  ⟨List.takeWhile_append_dropWhile.symm, rfl⟩

theorem span_holds (p : α → Bool) (c : Cursor α) : ∀ x ∈ (c.span p).1, p x = true :=
  fun x inRun => List.all_eq_true.1 List.all_takeWhile x inRun

theorem span_stops (p : α → Bool) (c : Cursor α) :
    ∀ x ∈ (c.span p).2.rest.head?, p x = false := by
  intro x isHead
  have stops := List.head?_dropWhile_not p c.rest
  change (c.rest.dropWhile p).head? = some x at isHead
  rw [isHead] at stops
  exact stops

theorem reaches_span (p : α → Bool) (c : Cursor α) : c.Reaches (c.span p).2 :=
  ⟨_, reads_span p c⟩

theorem advance_reaches_span {p : α → Bool} {c : Cursor α} {x : α} {rest : List α}
    (isCons : c.rest = x :: rest) (holds : p x = true) : c.advance.Reaches (c.span p).2 := by
  refine ⟨rest.takeWhile p, ?_, ?_⟩
  · simp only [advance, span, isCons, List.dropWhile_cons_of_pos holds,
      List.takeWhile_append_dropWhile]
  · simp only [advance, span, isCons, List.takeWhile_cons_of_pos holds, List.length_cons]
    omega

theorem span_append {p : α → Bool} {run rest : List α} (holds : ∀ x ∈ run, p x = true)
    (ends : ∀ x ∈ rest.head?, p x = false) (position : Nat) :
    (Cursor.mk (run ++ rest) position).span p = (run, ⟨rest, position + run.length⟩) := by
  have noMore : rest.takeWhile p = [] ∧ rest.dropWhile p = rest := by
    cases rest with
    | nil => exact ⟨rfl, rfl⟩
    | cons x tail =>
        have outside : ¬p x = true := by
          rw [ends x rfl]
          exact Bool.false_ne_true
        exact ⟨List.takeWhile_cons_of_neg outside, List.dropWhile_cons_of_neg outside⟩
  unfold span
  dsimp only
  rw [List.takeWhile_append_of_pos holds, List.dropWhile_append_of_pos holds, noMore.1, noMore.2,
    List.append_nil]

theorem peek?_eq_some {c : Cursor α} {x : α} (first : c.peek? = some x) :
    ∃ rest, c.rest = x :: rest := by
  match isCons : c.rest with
  | [] =>
      rw [peek?, isCons] at first
      cases first
  | y :: rest =>
      rw [peek?, isCons] at first
      cases first
      exact ⟨rest, rfl⟩

theorem reads_advance_of_peek? {c : Cursor α} {x : α} (first : c.peek? = some x) :
    Reads [x] c c.advance := by
  obtain ⟨rest, isCons⟩ := peek?_eq_some first
  exact reads_advance isCons

theorem length_pos_of_peek? {c : Cursor α} {x : α} (first : c.peek? = some x) :
    0 < c.rest.length := by
  obtain ⟨rest, isCons⟩ := peek?_eq_some first
  rw [isCons]
  exact Nat.succ_pos rest.length

theorem Reaches.drop_position {items : List α} {c : Cursor α}
    (reached : (ofList items).Reaches c) : items.drop c.position = c.rest := by
  obtain ⟨run, read, position⟩ := reached
  have isAppend : items = run ++ c.rest := read
  have atRun : c.position = run.length := by
    rw [position]
    exact Nat.zero_add run.length
  rw [isAppend, atRun, List.drop_left]

theorem Reaches.getElem?_position {items : List α} {c : Cursor α}
    (reached : (ofList items).Reaches c) : items[c.position]? = c.peek? := by
  rw [peek?, ← reached.drop_position, List.head?_drop]

theorem Reaches.position_add_length {first second : Cursor α} (reached : first.Reaches second) :
    second.position + second.rest.length = first.position + first.rest.length := by
  obtain ⟨run, read, position⟩ := reached
  rw [read, position, List.length_append]
  omega

theorem advance_position {c : Cursor α} {x : α} (first : c.peek? = some x) :
    c.advance.position = c.position + 1 := (reads_advance_of_peek? first).2

theorem advance_length_lt {c : Cursor α} {x : α} {rest : List α} (isCons : c.rest = x :: rest) :
    c.advance.rest.length < c.rest.length := by
  simp only [advance, isCons, List.length_cons, Nat.lt_succ_self]

end Cursor

end PathExpr
