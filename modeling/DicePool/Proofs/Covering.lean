/-
Module: DicePool.Proofs.Covering
Purpose: What two trees have in common if their leaves have the same bounds.
Main exports: Node.Account.Covers, Node.Account.CoversEach, Node.leaf_isReported, Node.Keeps,
  Node.Keeps.extreme, Node.Keeps.reports
-/
import DicePool.Proofs.Bounds
import DicePool.Proofs.Collecting
import DicePool.Proofs.Composing

/-!
Pools can be opened without loss of bounds: what a tree has as its bounds is settled by the bounds
of its leaves.  Whether it reports them is not.  A line of a pool has the values of its items in
it, and where a pool stands in a pool there are lines more than the leaves ask for.

So the relation between two trees, `Node.Keeps`, goes in one direction.  Leaf for leaf, in some
order, the second tree has the bounds of the first, and reports at least what the first reports.
As the second tree has no pools in pools, that carries over to the trees.
-/

namespace DicePool

namespace Node

variable {α : Type}

/-! ### Accounts of bounds -/

/-- The second node has the bounds of the first, and reports what the first reports. -/
structure Account.Covers (account again : Account) : Prop where
  bounds : again.bounds = account.bounds
  reports : ∀ side, account.reports side = true → again.reports side = true

theorem Account.covers_of_eq {account again : Account} (same : account = again) :
    account.Covers again := by
  subst same
  exact ⟨rfl, fun _ => id⟩

theorem account_covers {β : Type} {node : Node α} {again : Node β}
    (extremes : ∀ side, again.extreme side = node.extreme side)
    (reports : ∀ side, node.isReported side = true → again.isReported side = true) :
    (account node).Covers (account again) :=
  ⟨range_eq extremes, reports⟩

/-- The second nodes cover the first, each one of them, whatever their order is. -/
def Account.CoversEach (accounts agains : List Account) : Prop :=
  ∃ middle, List.Forall₂ Covers accounts middle ∧ middle.Perm agains

namespace Account.CoversEach

variable {accounts agains others : List Account}

theorem of_forall₂ (each : List.Forall₂ Covers accounts agains) : CoversEach accounts agains :=
  ⟨agains, each, .refl _⟩

theorem of_perm (perm : accounts.Perm agains) : CoversEach accounts agains :=
  ⟨accounts, List.forall₂_same.mpr fun _ _ => covers_of_eq rfl, perm⟩

theorem trans (covers : CoversEach accounts agains) (further : CoversEach agains others) :
    CoversEach accounts others := by
  obtain ⟨first, each, perm⟩ := covers
  obtain ⟨second, eachToo, permToo⟩ := further
  obtain ⟨middle, between, same⟩ := List.perm_comp_forall₂ perm eachToo
  refine ⟨middle, ?_, same.trans permToo⟩
  clear perm eachToo same permToo
  induction each generalizing middle with
  | nil =>
      cases between
      exact .nil
  | cons covers _ ih =>
      cases between with
      | cons next rest =>
          exact .cons ⟨next.bounds.trans covers.bounds,
            fun side reported => next.reports side (covers.reports side reported)⟩ (ih _ rest)

theorem append {accounts' agains' : List Account} (covers : CoversEach accounts agains)
    (coversToo : CoversEach accounts' agains') :
    CoversEach (accounts ++ accounts') (agains ++ agains') := by
  obtain ⟨middle, each, perm⟩ := covers
  obtain ⟨middle', eachToo, permToo⟩ := coversToo
  exact ⟨middle ++ middle', List.rel_append each eachToo, perm.append permToo⟩

theorem bounds (covers : CoversEach accounts agains) :
    (accounts.map Account.bounds).Perm (agains.map Account.bounds) := by
  obtain ⟨middle, each, perm⟩ := covers
  have same : accounts.map Account.bounds = middle.map Account.bounds := by
    clear perm
    induction each with
    | nil => rfl
    | cons first _ ih => rw [List.map_cons, List.map_cons, ih, first.bounds]
  exact (List.Perm.of_eq same).trans (perm.map _)

/-- What all of the first report, all of the second report. -/
theorem reports (covers : CoversEach accounts agains) {side : Extreme}
    (reported : ∀ account ∈ accounts, account.reports side = true) :
    ∀ again ∈ agains, again.reports side = true := by
  obtain ⟨middle, each, perm⟩ := covers
  have inMiddle : ∀ again ∈ middle, again.reports side = true := by
    clear perm
    induction each with
    | nil => nofun
    | cons first _ ih =>
        rw [List.forall_mem_cons] at reported ⊢
        exact ⟨first.reports side reported.1, ih reported.2⟩
  exact fun again mem => inMiddle again (perm.mem_iff.mpr mem)

end Account.CoversEach

section

variable {β : Type} {nodes : List (Node α)} {others : List (Node β)}

theorem ranges_of_covers (covers : Account.CoversEach (nodes.map account) (others.map account)) :
    (nodes.map range).Perm (others.map range) := by
  rw [← map_bounds_account, ← map_bounds_account]
  exact covers.bounds

theorem extremes_of_covers (covers : Account.CoversEach (nodes.map account) (others.map account))
    (side : Extreme) : (nodes.map (extreme side)).Perm (others.map (extreme side)) := by
  have perm := ranges_of_covers covers
  cases side with
  | lowest =>
      have firsts := perm.map Prod.fst
      rw [List.map_map, List.map_map] at firsts
      exact firsts
  | highest =>
      have seconds := perm.map Prod.snd
      rw [List.map_map, List.map_map] at seconds
      exact seconds

theorem reports_of_covers (covers : Account.CoversEach (nodes.map account) (others.map account))
    {side : Extreme} (reported : ∀ node ∈ nodes, node.isReported side = true) :
    ∀ other ∈ others, other.isReported side = true := fun _ mem =>
  covers.reports (List.forall_mem_map.mpr reported) _ (List.mem_map_of_mem mem)

end

/-! ### Leaves -/

/-- The leaves of a node report what it reports, and in a pool their bounds stand in a line. -/
theorem leaf_isReported {node : Node α} {side : Extreme} (reported : node.isReported side = true) :
    ∀ leaf ∈ node.leaves, leaf.isReported side = true ∧
      (node.isPool = true → Numeral.isWritable (leaf.extreme side) = true) := by
  induction node with
  | pool slot items ih =>
      rw [isReported_pool, Bool.and_eq_true, List.all_eq_true, List.all_eq_true,
        List.forall_mem_map] at reported
      obtain ⟨each, line⟩ := reported
      intro leaf mem
      rw [leaves_pool] at mem
      obtain ⟨item, itemMem, leafMem⟩ := List.mem_flatMap.mp mem
      obtain ⟨own, shown⟩ := ih item itemMem (each item itemMem) leaf leafMem
      refine ⟨own, fun _ => ?_⟩
      cases sort : item.isPool with
      | true => exact shown sort
      | false =>
          rw [leaves_of_not_isPool sort, List.mem_singleton] at leafMem
          rw [leafMem]
          exact line item itemMem
  | _ =>
      intro leaf mem
      rw [leaves_of_not_isPool rfl, List.mem_singleton] at mem
      subst mem
      exact ⟨reported, nofun⟩

/-- A node with one leaf has the bounds of the leaf. -/
theorem range_of_leaves_singleton {node leaf : Node α} (single : node.leaves = [leaf]) :
    node.range = leaf.range := by
  refine range_eq fun side => ?_
  rw [← sum_extreme_leaves side node, single, List.map_singleton, List.sum_singleton]

theorem account_covers_of_leaves_singleton {node leaf : Node α} (single : node.leaves = [leaf]) :
    (account node).Covers (account leaf) :=
  ⟨(range_of_leaves_singleton single).symm,
    fun _ reported => (leaf_isReported reported leaf (by simp [single])).1⟩

theorem account_die (slot : α) (d : Die) : account (die slot d) = account (die () d) := by
  refine account_eq (fun side => ?_) fun side => ?_
  · rw [extreme_die, extreme_die]
  · rw [isReported_die, isReported_die]

/-- The leaves of the second node cover those of the first, and can be written. -/
structure Keeps (node : Node α) (again : Node Unit) : Prop where
  leaves : Account.CoversEach (node.leaves.map account) (again.leaves.map account)
  writable : ∀ leaf ∈ again.leaves, leaf.isWritable = true

section

variable {node : Node α} {again : Node Unit} {limit : Int}

theorem Keeps.extreme (keeps : node.Keeps again) (side : Extreme) :
    again.extreme side = node.extreme side := by
  rw [← sum_extreme_leaves side again, ← sum_extreme_leaves side node]
  exact (extremes_of_covers keeps.leaves side).symm.sum_eq

/-- What is assembled again reports what the node reports. -/
theorem Keeps.reports (keeps : node.Keeps again) (assembled : again.Assembled limit)
    (side : Extreme)
    (reported : node.isReported side = true) : again.isReported side = true := by
  have own := leaf_isReported reported
  have each := reports_of_covers keeps.leaves fun leaf mem => (own leaf mem).1
  cases sort : again.isPool with
  | false => exact each again (by simp [leaves_of_not_isPool sort])
  | true =>
      obtain ⟨items, rfl⟩ := exists_of_isPool sort
      have extremes := extremes_of_covers keeps.leaves side
      rw [assembled.leaves_eq_poured, poured] at each extremes
      rw [isReported_pool, Bool.and_eq_true, List.all_eq_true, ← extremes.all_eq, List.all_eq_true,
        List.forall_mem_map]
      refine ⟨each, fun leaf mem => ?_⟩
      cases sortToo : node.isPool with
      | true => exact (own leaf mem).2 sortToo
      | false =>
          -- Then the pool has one item, which is a die and shows its bound.
          rw [leaves_of_not_isPool sortToo] at mem extremes
          obtain ⟨item, rfl⟩ : ∃ item, items = [item] :=
            List.length_eq_one_iff.mp (by simpa using extremes.length_eq.symm)
          have isDie := assembled.isDie_of_pool_one
          cases item with
          | die slot d =>
              have shown := each (die slot d) List.mem_cons_self
              rw [isReported_die, ← extreme_die side slot] at shown
              rw [List.mem_singleton.mp mem]
              have same : node.extreme side = (die slot d).extreme side := by simpa using extremes
              rwa [same]
          | _ => contradiction

/-- What is assembled again can be written, if the leaves are not too many to be counted. -/
theorem Keeps.isWritable (keeps : node.Keeps again) (assembled : again.Assembled limit)
    (few : Numeral.isWritable node.leaves.length = true) : again.isWritable = true := by
  have each := keeps.writable
  have length : node.leaves.length = again.leaves.length := by
    simpa using (extremes_of_covers keeps.leaves .lowest).length_eq
  cases sort : again.isPool with
  | false => exact each again (by simp [leaves_of_not_isPool sort])
  | true =>
      obtain ⟨items, rfl⟩ := exists_of_isPool sort
      rw [length, assembled.leaves_eq_poured] at few
      rw [assembled.leaves_eq_poured] at each
      exact isWritable_pool_of few each

/-- What keeps leaves that can be exploded can be exploded, whatever the limits are. -/
theorem Keeps.explodes (keeps : node.Keeps again) {comparison : Comparison} {threshold : Int}
    {times : Nat} (explodes : node.Explodes ⟨comparison, threshold, times⟩) (times' : Nat) :
    again.Explodes ⟨comparison, threshold, times'⟩ where
  reports leaf mem side :=
    reports_of_covers keeps.leaves (fun leaf mem => explodes.reports leaf mem side) leaf mem
  suits := explodes.suits.of_perm (ranges_of_covers keeps.leaves) times'

/-- What is no pool keeps what is no pool, if it covers that. -/
theorem keeps_of_not_isPool (noPool : node.isPool = false) (noPoolToo : again.isPool = false)
    (covers : (account node).Covers (account again)) (writable : again.isWritable = true) :
    node.Keeps again := by
  refine ⟨?_, ?_⟩
  · rw [leaves_of_not_isPool noPool, leaves_of_not_isPool noPoolToo]
    exact .of_forall₂ (.cons covers .nil)
  · rw [leaves_of_not_isPool noPoolToo]
    simpa using writable

end

end Node

end DicePool
