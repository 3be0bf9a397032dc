import Mathlib.Data.List.Flatten
import PathExpr.Proofs.Evaluation.Lookups
import PathExpr.Proofs.Folding.Basic
import PathExpr.Proofs.Folding.Normal

set_option autoImplicit false

namespace PathExpr.Expr

variable {ν : Type} {i j k : Option Kind}

def totalNodes : List (Expr ν k) → Nat
  | [] => 0
  | e :: rest => e.nodeCount + totalNodes rest

theorem totalNodes_append (first second : List (Expr ν k)) :
    totalNodes (first ++ second) = totalNodes first + totalNodes second := by
  induction first with
  | nil => exact (Nat.zero_add _).symm
  | cons e rest ih =>
      rw [List.cons_append, totalNodes, totalNodes, ih]
      exact (Nat.add_assoc _ _ _).symm

theorem totalNodes_le_of_sublist {fewer more : List (Expr ν k)} (sublist : fewer.Sublist more) :
    totalNodes fewer ≤ totalNodes more := by
  induction sublist with
  | slnil => exact Nat.le_refl _
  | cons e rest ih => exact Nat.le_trans ih (Nat.le_add_left _ _)
  | cons_cons e rest ih => exact Nat.add_le_add_left ih _

theorem nodeCount_chain (op : Associative) (operands : List (Expr ν (some .number))) :
    nodeCount (.chain op operands) = 1 + totalNodes operands := by
  rw [nodeCount]
  congr 1
  induction operands with
  | nil => rfl
  | cons e rest ih => rw [numbersNodeCount, ih, totalNodes]

theorem nodeCount_logic (op : Logical) (operands : List (Expr ν (some .boolean))) :
    nodeCount (.logic op operands) = 1 + totalNodes operands := by
  rw [nodeCount]
  congr 1
  induction operands with
  | nil => rfl
  | cons e rest ih => rw [booleansNodeCount, ih, totalNodes]

theorem nodeCount_pos (e : Expr ν k) : 0 < e.nodeCount := by
  induction e using induct with
  | typed e ih => exact ih
  | path | number | boolean | string => exact Nat.one_pos
  | withDefault | negate | length | not | chain | logic =>
      rw [nodeCount]
      omega
  | subtract | divide | compare | equal =>
      rw [nodeCount]
      omega

/-- The first tree has no more nodes than the second one, and its paths are some of the paths of
that, in the same order. -/
structure Within (d : Expr ν j) (e : Expr ν k) : Prop where
  nodes : d.nodeCount ≤ e.nodeCount
  paths : d.occurrences.Sublist e.occurrences

structure AllWithin (ds : List (Expr ν j)) (es : List (Expr ν k)) : Prop where
  nodes : totalNodes ds ≤ totalNodes es
  paths : (ds.flatMap occurrences).Sublist (es.flatMap occurrences)

namespace Within

theorem refl (e : Expr ν k) : Within e e := ⟨Nat.le_refl _, List.Sublist.refl _⟩

theorem trans {c : Expr ν i} {d : Expr ν j} {e : Expr ν k} (first : Within c d)
    (second : Within d e) : Within c e :=
  ⟨Nat.le_trans first.nodes second.nodes, first.paths.trans second.paths⟩

theorem leaf {d : Expr ν j} (alone : d.nodeCount = 1) (noPath : d.occurrences = [])
    (e : Expr ν k) : Within d e := by
  refine ⟨?_, ?_⟩
  · rw [alone]
    exact nodeCount_pos e
  · rw [noPath]
    exact List.nil_sublist _

theorem single (node : Expr ν j → Expr ν k) (nodes : ∀ e, (node e).nodeCount = 1 + e.nodeCount)
    (paths : ∀ e, (node e).occurrences = e.occurrences) {d e : Expr ν j} (inner : Within d e) :
    Within (node d) (node e) := by
  refine ⟨?_, ?_⟩
  · rw [nodes, nodes]
    exact Nat.add_le_add_left inner.nodes 1
  · rw [paths, paths]
    exact inner.paths

theorem pair (node : Expr ν j → Expr ν j → Expr ν k)
    (nodes : ∀ l r, (node l r).nodeCount = 1 + l.nodeCount + r.nodeCount)
    (parts : ∀ l r, (node l r).inside = l.subtrees ++ r.subtrees)
    (noPath : ∀ l r, (node l r).lookup? = none) {l l' r r' : Expr ν j} (left : Within l' l)
    (right : Within r' r) : Within (node l' r') (node l r) := by
  have paths : ∀ l r, (node l r).occurrences = l.occurrences ++ r.occurrences := by
    intro l r
    have below : (node l r).occurrences = (node l r).inside.filterMap fun s => s.2.lookup? :=
      List.filterMap_cons_none (noPath l r)
    rw [below, parts, List.filterMap_append]
    rfl
  refine ⟨?_, ?_⟩
  · rw [nodes, nodes]
    exact Nat.add_le_add (Nat.add_le_add_left left.nodes 1) right.nodes
  · rw [paths, paths]
    exact left.paths.append right.paths

theorem join (node : List (Expr ν j) → Expr ν k)
    (nodes : ∀ es, (node es).nodeCount = 1 + totalNodes es)
    (paths : ∀ es, (node es).occurrences = es.flatMap occurrences) {ds es : List (Expr ν j)}
    (operands : AllWithin ds es) : Within (node ds) (node es) := by
  refine ⟨?_, ?_⟩
  · rw [nodes, nodes]
    exact Nat.add_le_add_left operands.nodes 1
  · rw [paths, paths]
    exact operands.paths

theorem chain (op : Associative) {ds es : List (Expr ν (some .number))}
    (operands : AllWithin ds es) : Within (.chain op ds) (.chain op es) :=
  join (.chain op) (nodeCount_chain op) (occurrences_chain op) operands

theorem logic (op : Logical) {ds es : List (Expr ν (some .boolean))}
    (operands : AllWithin ds es) : Within (.logic op ds) (.logic op es) :=
  join (.logic op) (nodeCount_logic op) (occurrences_logic op) operands

end Within

namespace AllWithin

theorem of_sublist {ds es : List (Expr ν k)} (sublist : ds.Sublist es) : AllWithin ds es :=
  ⟨totalNodes_le_of_sublist sublist, sublist.flatMap occurrences⟩

theorem spliced (node : List (Expr ν j) → Expr ν k)
    (nodes : ∀ es, (node es).nodeCount = 1 + totalNodes es)
    (paths : ∀ es, (node es).occurrences = es.flatMap occurrences) (operands : List (Expr ν j)) :
    AllWithin operands [node operands] := by
  refine ⟨?_, ?_⟩
  · rw [totalNodes, nodes]
    omega
  · rw [List.flatMap_singleton, paths]

theorem flatMap {es : List (Expr ν k)} {f : Expr ν k → List (Expr ν j)}
    (each : ∀ e ∈ es, AllWithin (f e) [e]) : AllWithin (es.flatMap f) es := by
  induction es with
  | nil => exact ⟨Nat.le_refl _, List.Sublist.refl _⟩
  | cons e rest ih =>
      obtain ⟨here, further⟩ := List.forall_mem_cons.1 each
      obtain ⟨nodes, paths⟩ := here
      refine ⟨?_, ?_⟩
      · rw [List.flatMap_cons, totalNodes_append, totalNodes]
        exact Nat.add_le_add nodes (ih further).nodes
      · rw [List.flatMap_cons, List.flatMap_append, List.flatMap_cons]
        rw [List.flatMap_singleton] at paths
        exact paths.append (ih further).paths

theorem map {es : List (Expr ν k)} {f : Expr ν k → Expr ν j} (each : ∀ e ∈ es, Within (f e) e) :
    AllWithin (es.map f) es := by
  rw [List.map_eq_flatMap]
  refine flatMap fun e isIn => ⟨?_, ?_⟩
  · exact Nat.add_le_add_right (each e isIn).nodes 0
  · rw [List.flatMap_singleton, List.flatMap_singleton]
    exact (each e isIn).paths

end AllWithin

theorem allWithin_chainOperands (op : Associative) (e : Expr ν (some .number)) :
    AllWithin (chainOperands op e) [e] := by
  have alone : AllWithin [e] [e] := .of_sublist (List.Sublist.refl _)
  unfold chainOperands
  split
  · rename_i inner operands
    split
    · exact .spliced (.chain inner) (nodeCount_chain inner) (occurrences_chain inner) operands
    · exact alone
  · exact alone

theorem allWithin_logicOperands (op : Logical) (e : Expr ν (some .boolean)) :
    AllWithin (logicOperands op e) [e] := by
  have alone : AllWithin [e] [e] := .of_sublist (List.Sublist.refl _)
  unfold logicOperands
  split
  · rename_i inner operands
    split
    · exact .spliced (.logic inner) (nodeCount_logic inner) (occurrences_logic inner) operands
    · exact alone
  · exact alone

/-- One literal in the place of all the literals, if there is any, is nothing new. -/
theorem allWithin_literalLast {operands : List (Expr ν (some .number))}
    (someLiteral : operands.filterMap number? ≠ []) (x : ν) :
    AllWithin (operands.filter (fun e => e.number?.isNone) ++ [.number x]) operands := by
  -- the literal `y` that is left out makes room for `x`
  obtain ⟨y, isLiteral⟩ := List.exists_mem_of_ne_nil _ someLiteral
  obtain ⟨e, isOperand, known⟩ := List.mem_filterMap.1 isLiteral
  obtain rfl := eq_number_of_number? known
  obtain ⟨before, after, rfl⟩ := List.append_of_mem isOperand
  have kept : AllWithin ((before ++ after).filter fun e => e.number?.isNone) (before ++ after) :=
    .of_sublist List.filter_sublist
  obtain ⟨nodes, paths⟩ := kept
  rw [List.filter_append, List.filter_cons_of_neg Bool.false_ne_true, ← List.filter_append]
  refine ⟨?_, ?_⟩
  · have one : totalNodes [(.number x : Expr ν _)] = 1 := rfl
    have literal : (.number y : Expr ν _).nodeCount = 1 := rfl
    rw [totalNodes_append before] at nodes ⊢
    rw [totalNodes_append, one, totalNodes, literal]
    omega
  · have noPath : (.number x : Expr ν _).occurrences = [] := rfl
    rw [List.flatMap_append, List.flatMap_singleton, noPath, List.append_nil]
    rw [List.flatMap_append] at paths ⊢
    exact paths

theorem within_notOf (e : Expr ν (some .boolean)) : Within (notOf e) (.not e) := by
  unfold notOf
  split
  · exact .leaf rfl rfl _
  · exact .refl _

theorem within_binaryOf {i : Kind}
    {node : Expr ν (some .number) → Expr ν (some .number) → Expr ν (some i)}
    {result : ν → ν → Expr ν (some i)} (alone : ∀ a b, (result a b).nodeCount = 1)
    (noPath : ∀ a b, (result a b).occurrences = []) (l r : Expr ν (some .number)) :
    Within (binaryOf node result l r) (node l r) := by
  refine binaryOf_cases (motive := fun d => Within d (node l r)) (fun a b => ?_) fun _ => .refl _
  exact .leaf (alone a b) (noPath a b) _

theorem within_logicOf (op : Logical) (operands : List (Expr ν (some .boolean))) :
    Within (logicOf op operands) (.logic op operands) := by
  have joined := AllWithin.flatMap fun e (_ : e ∈ operands) => allWithin_logicOperands op e
  refine Within.trans ?_ (.logic op joined)
  unfold logicOf
  generalize operands.flatMap (logicOperands op) = joined
  dsimp only
  split
  · exact .leaf rfl rfl _
  · split
    · exact .leaf rfl rfl _
    · exact .logic op (.of_sublist List.filter_sublist)

theorem within_negateOf [Arithmetic ν] (e : Expr ν (some .number)) :
    Within (negateOf e) (.negate e) := by
  unfold negateOf
  split
  · exact .leaf rfl rfl _
  · exact .refl _

theorem within_equalOf [Arithmetic ν] (l r : Expr ν none) : Within (equalOf l r) (.equal l r) := by
  unfold equalOf
  split
  · exact .leaf rfl rfl _
  · exact .refl _

/-- The literal behind the other operands stands for at least one that was among them, since the
result of no literals is left out. -/
theorem within_chainOf (op : Associative) (operands : List (Expr Float (some .number))) :
    Within (chainOf op operands) (.chain op operands) := by
  have joined := AllWithin.flatMap fun e (_ : e ∈ operands) => allWithin_chainOperands op e
  refine Within.trans ?_ (.chain op joined)
  unfold chainOf
  generalize operands.flatMap (chainOperands op) = joined
  dsimp only
  split
  · exact .leaf rfl rfl _
  · split
    · exact .chain op (.of_sublist List.filter_sublist)
    · rename_i changes
      refine .chain op (allWithin_literalLast ?_ _)
      intro noLiteral
      rw [noLiteral] at changes
      exact changes (isIdentity_identity op)

theorem within_normalize (e : Expr Float k) : Within e.normalize e := by
  induction e using induct with
  | path p | number x | boolean b | string s => exact .refl _
  | withDefault p d ih => exact ⟨Nat.add_le_add_left ih.nodes 1, ih.paths.cons_cons _⟩
  | typed e ih => exact ⟨ih.nodes, ih.paths⟩
  | negate e ih =>
      exact (within_negateOf _).trans (.single .negate (fun _ => rfl) (fun _ => rfl) ih)
  | chain op operands ih =>
      rw [normalize_chain]
      exact (within_chainOf op _).trans (.chain op (.map ih))
  | subtract l r ihLeft ihRight =>
      apply Within.trans (within_binaryOf (fun _ _ => rfl) (fun _ _ => rfl) _ _)
      exact .pair .subtract (fun _ _ => rfl) (fun _ _ => rfl) (fun _ _ => rfl) ihLeft ihRight
  | divide l r ihLeft ihRight =>
      apply Within.trans (within_binaryOf (fun _ _ => rfl) (fun _ _ => rfl) _ _)
      exact .pair .divide (fun _ _ => rfl) (fun _ _ => rfl) (fun _ _ => rfl) ihLeft ihRight
  | length a ih => exact .single .length (fun _ => rfl) (fun _ => rfl) ih
  | not e ih => exact (within_notOf _).trans (.single .not (fun _ => rfl) (fun _ => rfl) ih)
  | compare op l r ihLeft ihRight =>
      apply Within.trans (within_binaryOf (fun _ _ => rfl) (fun _ _ => rfl) _ _)
      exact .pair (.compare op) (fun _ _ => rfl) (fun _ _ => rfl) (fun _ _ => rfl) ihLeft ihRight
  | equal l r ihLeft ihRight =>
      apply (within_equalOf _ _).trans
      exact .pair .equal (fun _ _ => rfl) (fun _ _ => rfl) (fun _ _ => rfl) ihLeft ihRight
  | logic op operands ih =>
      rw [normalize_logic]
      exact (within_logicOf op _).trans (.logic op (.map ih))

/-- Folding makes no tree larger, leaves it its kind and adds no path to it: the paths that are
left stand for the lookups they stood for, in the same order. -/
theorem normalize_adds_nothing :
    (∀ (k : Option Kind) (e : Expr Float k),
      e.normalize.nodeCount ≤ e.nodeCount ∧ e.normalize.occurrences.Sublist e.occurrences) ∧
    ∀ e : Expr Float none, e.normalize.kind? = e.kind? :=
  ⟨fun _ e => ⟨(within_normalize e).nodes, (within_normalize e).paths⟩, kind?_normalize⟩

end PathExpr.Expr
