/-
Module: DicePool.Proofs.Tree
Purpose: The nodes inside a node, and induction over trees.
Main exports: Node.induction, Node.inside, Node.subtrees, Node.induction_inside,
  Node.induction_everywhere, Node.leaves_subset
-/
import DicePool.Node

/-!
A node holds its inner nodes in lists, so structural induction needs a principle that
speaks of every item of a list: `Node.induction`.

An explosion rolls nodes that lie deeper than its inner node, and a selection has a pool
in it that is no node of its own.  For such nodes the principle to use is
`Node.induction_inside`, which assumes the statement for everything inside.
-/

namespace DicePool.Node

variable {α : Type}

/-- Structural induction over a tree. -/
@[elab_as_elim, induction_eliminator]
theorem induction {motive : Node α → Prop}
    (die : ∀ slot d, motive (.die slot d))
    (pool : ∀ slot items, (∀ item ∈ items, motive item) → motive (.pool slot items))
    (arithmetic : ∀ slot operation value inner, motive inner →
      motive (.arithmetic slot operation value inner))
    (selection : ∀ slot s threshold poolSlot items, (∀ item ∈ items, motive item) →
      motive (.selection slot s threshold poolSlot items))
    (explosion : ∀ slot rule inner, motive inner → motive (.explosion slot rule inner)) :
    ∀ node, motive node
  | .die slot d => die slot d
  | .pool slot items =>
      pool slot items fun item _ =>
        induction die pool arithmetic selection explosion item
  | .arithmetic slot operation value inner =>
      arithmetic slot operation value inner
        (induction die pool arithmetic selection explosion inner)
  | .selection slot s threshold poolSlot items =>
      selection slot s threshold poolSlot items fun item _ =>
        induction die pool arithmetic selection explosion item
  | .explosion slot rule inner =>
      explosion slot rule inner (induction die pool arithmetic selection explosion inner)

/-- Whether the node is an explosion. -/
def isExplosion : Node α → Bool
  | explosion _ _ _ => true
  | _ => false

mutual

/-- The nodes inside the node, at any depth. The pool of a selection is one of them. -/
def inside : Node α → List (Node α)
  | die _ _ => []
  | pool _ items => insideEach items
  | arithmetic _ _ _ inner => inner :: inside inner
  | selection _ _ _ poolSlot items => pool poolSlot items :: insideEach items
  | explosion _ _ inner => inner :: inside inner

/-- Several nodes and everything inside them. -/
def insideEach : List (Node α) → List (Node α)
  | [] => []
  | node :: rest => node :: inside node ++ insideEach rest

end

/-- The nodes of the tree: the node itself and everything inside it. -/
def subtrees (node : Node α) : List (Node α) :=
  node :: inside node

theorem insideEach_eq_flatMap (items : List (Node α)) :
    insideEach items = items.flatMap subtrees := by
  induction items with
  | nil => rfl
  | cons node rest ih => simp [insideEach, subtrees, ih]

@[simp] theorem self_mem_subtrees (node : Node α) : node ∈ node.subtrees := by
  simp [subtrees]

@[simp] theorem inside_die (slot : α) (d : Die) : (die slot d).inside = [] := by
  simp [inside]

@[simp] theorem inside_pool (slot : α) (items : List (Node α)) :
    (pool slot items).inside = items.flatMap subtrees := by
  simp [inside, insideEach_eq_flatMap]

@[simp] theorem inside_arithmetic (slot : α) (operation : Operation) (value : Nat)
    (inner : Node α) : (arithmetic slot operation value inner).inside = inner.subtrees := by
  simp [inside, subtrees]

@[simp] theorem inside_selection (slot : α) (s : Selection) (threshold : Nat) (poolSlot : α)
    (items : List (Node α)) :
    (selection slot s threshold poolSlot items).inside = (pool poolSlot items).subtrees := by
  simp [inside, subtrees, insideEach_eq_flatMap]

@[simp] theorem inside_explosion (slot : α) (rule : Explosion) (inner : Node α) :
    (explosion slot rule inner).inside = inner.subtrees := by
  simp [inside, subtrees]

/-- Induction over a tree that assumes the statement for everything inside a node. -/
@[elab_as_elim]
theorem induction_inside {motive : Node α → Prop}
    (step : ∀ node : Node α, (∀ sub ∈ node.inside, motive sub) → motive node)
    (node : Node α) : motive node := by
  -- What is proved by structural induction is the statement for all nodes of the tree.
  suffices everywhere : ∀ sub ∈ node.subtrees, motive sub from everywhere node (by simp)
  have extend : ∀ node : Node α, (∀ sub ∈ node.inside, motive sub) →
      ∀ sub ∈ node.subtrees, motive sub := by
    intro node ih sub mem
    rcases List.mem_cons.mp mem with rfl | mem
    · exact step sub ih
    · exact ih sub mem
  have ofItems : ∀ items : List (Node α),
      (∀ item ∈ items, ∀ sub ∈ item.subtrees, motive sub) →
      ∀ sub ∈ items.flatMap subtrees, motive sub := by
    intro items ih sub mem
    obtain ⟨item, itemMem, subMem⟩ := List.mem_flatMap.mp mem
    exact ih item itemMem sub subMem
  induction node with
  | die slot d => exact extend _ (by simp)
  | pool slot items ih => exact extend _ (by simpa using ofItems items ih)
  | arithmetic slot operation value inner ih => exact extend _ (by simpa using ih)
  | selection slot s threshold poolSlot items ih =>
      refine extend _ ?_
      rw [inside_selection]
      exact extend _ (by rw [inside_pool]; exact ofItems items ih)
  | explosion slot rule inner ih => exact extend _ (by simpa using ih)

/-- What is inside a node of the tree is inside the tree. -/
theorem inside_subset {node sub : Node α} (mem : sub ∈ node.subtrees) :
    sub.inside ⊆ node.inside := by
  induction node using induction_inside with
  | step node ih =>
      rcases List.mem_cons.mp mem with rfl | deeper
      · exact fun _ mem => mem
      · -- `sub` lies in one of the nodes directly inside `node`.
        have through : ∀ child ∈ node.inside, sub ∈ child.subtrees →
            child.subtrees ⊆ node.inside → sub.inside ⊆ node.inside := by
          intro child childMem subMem childSubset
          exact List.Subset.trans (ih child childMem subMem)
            (List.Subset.trans (List.subset_cons_self _ _) childSubset)
        cases node with
        | die slot d => simp at deeper
        | pool slot items =>
            rw [inside_pool] at deeper through ⊢
            obtain ⟨item, itemMem, subMem⟩ := List.mem_flatMap.mp deeper
            refine through item (List.mem_flatMap.mpr ⟨item, itemMem, by simp⟩) subMem ?_
            exact fun _ mem => List.mem_flatMap.mpr ⟨item, itemMem, mem⟩
        | arithmetic slot operation value inner =>
            rw [inside_arithmetic] at deeper through ⊢
            exact through inner (by simp) deeper (fun _ mem => mem)
        | selection slot s threshold poolSlot items =>
            rw [inside_selection] at deeper through ⊢
            exact through (pool poolSlot items) (by simp) deeper (fun _ mem => mem)
        | explosion slot rule inner =>
            rw [inside_explosion] at deeper through ⊢
            exact through inner (by simp) deeper (fun _ mem => mem)

/-- A node of a node of the tree is a node of the tree. -/
theorem subtrees_subset {node sub : Node α} (mem : sub ∈ node.subtrees) :
    sub.subtrees ⊆ node.subtrees :=
  List.cons_subset.mpr ⟨mem, List.Subset.trans (inside_subset mem) (List.subset_cons_self _ _)⟩

/-- Induction over a tree in which every node has some property: the step may use the property
of the node itself. -/
theorem induction_everywhere {property motive : Node α → Prop}
    (step : ∀ node : Node α, property node → (∀ sub ∈ node.inside, motive sub) → motive node)
    {node : Node α} (everywhere : ∀ sub ∈ node.subtrees, property sub) : motive node := by
  induction node using induction_inside with
  | step node ih =>
      refine step node (everywhere node (self_mem_subtrees node)) fun sub mem => ih sub mem ?_
      intro deeper deeperMem
      exact everywhere deeper (subtrees_subset (List.mem_cons_of_mem _ mem) deeperMem)

@[simp] theorem leaves_pool (slot : α) (items : List (Node α)) :
    (pool slot items).leaves = items.flatMap leaves := by
  rw [leaves, leavesEach_eq_flatMap]

/-- The leaves of a node are nodes of its tree. -/
theorem leaves_subset (node : Node α) : node.leaves ⊆ node.subtrees := by
  induction node with
  | pool slot items ih =>
      intro leaf mem
      rw [leaves_pool] at mem
      obtain ⟨item, itemMem, leafMem⟩ := List.mem_flatMap.mp mem
      refine List.mem_cons_of_mem _ ?_
      rw [inside_pool]
      exact List.mem_flatMap.mpr ⟨item, itemMem, ih item itemMem leafMem⟩
  | _ => simp [leaves]

theorem item_mem_inside_pool (slot : α) {items : List (Node α)} {item : Node α}
    (mem : item ∈ items) : item ∈ (pool slot items).inside := by
  rw [inside_pool]
  exact List.mem_flatMap.mpr ⟨item, mem, by simp⟩

theorem item_mem_inside_selection (slot : α) (s : Selection) (threshold : Nat) (poolSlot : α)
    {items : List (Node α)} {item : Node α} (mem : item ∈ items) :
    item ∈ (selection slot s threshold poolSlot items).inside := by
  rw [inside_selection]
  exact List.mem_cons_of_mem _ (item_mem_inside_pool poolSlot mem)

theorem leaf_mem_inside_explosion (slot : α) (rule : Explosion) {inner leaf : Node α}
    (mem : leaf ∈ inner.leaves) : leaf ∈ (explosion slot rule inner).inside := by
  rw [inside_explosion]
  exact inner.leaves_subset mem

end DicePool.Node
