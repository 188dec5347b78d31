/-
Module: DicePool.Proofs.Rearranging
Purpose: Trees that differ in the order of their items and in pools of one.
Main exports: Node.bared, Node.Rearranged, Node.account, Node.Mirrors, Node.Mirrors.pool,
  Node.Mirrors.selection, Node.mirrors_flatten
-/
import DicePool.Proofs.Spellings

/-!
Two trees say the same if they are equal but for the order in which pools hold their items
and for pools of one, which are as good as their items.  `Node.bared` takes the latter away
and `Node.Rearranged` looks through the former.

Such trees need not be written alike, because a pool is written in the order of its items.
`Node.Mirrors` adds that they are, and that they have the same bounds and report the same of
them, and is kept by every way of putting a node together.  Only a pool of one may report less
than its item, unless the item is a die.
-/

namespace DicePool.Node

variable {α : Type}

/-! ### Pools of one and the order of items -/

mutual

/-- The tree with every pool of one replaced by its item. -/
def bared : Node α → Node α
  | die slot d => die slot d
  | pool slot items => (pool slot (baredEach items)).flatten
  | arithmetic slot operation value inner => arithmetic slot operation value (bared inner)
  | selection slot s threshold poolSlot items =>
      selection slot s threshold poolSlot (baredEach items)
  | explosion slot rule inner => explosion slot rule (bared inner)

/-- Several trees with every pool of one replaced by its item. -/
def baredEach : List (Node α) → List (Node α)
  | [] => []
  | node :: rest => bared node :: baredEach rest

end

@[simp] theorem baredEach_eq_map (items : List (Node α)) :
    baredEach items = items.map bared := by
  induction items with
  | nil => rfl
  | cons node rest ih => rw [baredEach, ih, List.map_cons]

/-- The trees are equal but for their slots and for the order of the items of every pool
and selection. -/
inductive Rearranged : Node α → Node α → Prop where
  | die (slot slot' : α) (d : Die) : Rearranged (die slot d) (die slot' d)
  | pool (slot slot' : α) {items middle items' : List (Node α)} (perm : items.Perm middle)
      (each : List.Forall₂ Rearranged middle items') :
      Rearranged (pool slot items) (pool slot' items')
  | arithmetic (slot slot' : α) (operation : Operation) (value : Nat) {inner inner' : Node α}
      (same : Rearranged inner inner') :
      Rearranged (arithmetic slot operation value inner) (arithmetic slot' operation value inner')
  | selection (slot slot' : α) (s : Selection) (threshold : Nat) (poolSlot poolSlot' : α)
      {items middle items' : List (Node α)} (perm : items.Perm middle)
      (each : List.Forall₂ Rearranged middle items') :
      Rearranged (selection slot s threshold poolSlot items)
        (selection slot' s threshold poolSlot' items')
  | explosion (slot slot' : α) (rule : Explosion) {inner inner' : Node α}
      (same : Rearranged inner inner') :
      Rearranged (explosion slot rule inner) (explosion slot' rule inner')

/-! ### What is reported -/

section

variable {β : Type} {inner : Node α} {other : Node β}

/-- Arithmetic reports a bound where arithmetic on a node with the same bounds does, if the node
reports as much. -/
theorem isReported_arithmetic_of (same : ∀ side, other.extreme side = inner.extreme side)
    (reports : ∀ side, inner.isReported side = true → other.isReported side = true)
    (slot : α) (slot' : β) (operation : Operation) (value : Nat) {side : Extreme}
    (reported : (arithmetic slot operation value inner).isReported side = true) :
    (arithmetic slot' operation value other).isReported side = true := by
  have low : other.minimum = inner.minimum := same .lowest
  have high : other.maximum = inner.maximum := same .highest
  rw [isReported_arithmetic] at reported ⊢
  by_cases monotone : operation.isMonotone value = true
  · simp only [if_pos monotone, Bool.and_eq_true] at reported ⊢
    obtain ⟨⟨base, lhs⟩, rhs⟩ := reported
    exact ⟨⟨reports side base, by rwa [same]⟩, rhs⟩
  · simp only [if_neg monotone, Bool.and_eq_true] at reported ⊢
    obtain ⟨⟨⟨least, greatest⟩, lhs⟩, rhs⟩ := reported
    exact ⟨⟨⟨reports .lowest least, reports .highest greatest⟩, by rwa [low, high]⟩, rhs⟩

theorem isReported_explosion_of (same : ∀ side, other.extreme side = inner.extreme side)
    (reports : ∀ side, inner.isReported side = true → other.isReported side = true)
    (slot : α) (slot' : β) (rule rule' : Explosion) {side : Extreme}
    (reported : (explosion slot rule inner).isReported side = true) :
    (explosion slot' rule' other).isReported side = true := by
  cases side with
  | lowest =>
      rw [(isReported_explosion ..).1, Bool.and_eq_true] at reported ⊢
      obtain ⟨least, lhs⟩ := reported
      refine ⟨reports .lowest least, ?_⟩
      rwa [show other.minimum = inner.minimum from same .lowest]
  | highest => exact (isReported_explosion ..).2

theorem isReported_selection_of {items : List (Node α)} {others : List (Node β)}
    (same : ∀ side, (items.map (extreme side)).Perm (others.map (extreme side)))
    {side : Extreme} (reports : (∀ item ∈ items, item.isReported side = true) →
      ∀ item ∈ others, item.isReported side = true)
    (slot : α) (slot' : β) (s : Selection) (threshold : Nat) (poolSlot : α) (poolSlot' : β)
    (reported : (selection slot s threshold poolSlot items).isReported side = true) :
    (selection slot' s threshold poolSlot' others).isReported side = true := by
  rw [isReported_selection, Bool.and_eq_true, List.all_eq_true] at reported ⊢
  obtain ⟨each, kept⟩ := reported
  exact ⟨reports each, by rwa [← s.select_perm threshold (same side)]⟩

theorem isReported_pool_of {items : List (Node α)} {others : List (Node β)} {side : Extreme}
    (same : (items.map (extreme side)).Perm (others.map (extreme side)))
    (reports : (∀ item ∈ items, item.isReported side = true) →
      ∀ item ∈ others, item.isReported side = true)
    (slot : α) (slot' : β) (reported : (pool slot items).isReported side = true) :
    (pool slot' others).isReported side = true := by
  rw [isReported_pool, Bool.and_eq_true, List.all_eq_true] at reported ⊢
  obtain ⟨each, line⟩ := reported
  exact ⟨reports each, by rwa [← same.all_eq]⟩

end

/-- A pool of one die reports what the die reports. -/
theorem isReported_pool_die (side : Extreme) (slot slot' : α) (d : Die) :
    (pool slot [die slot' d]).isReported side = (die slot' d).isReported side := by
  rw [isReported_pool, List.all_cons, List.all_nil, List.map_singleton, List.all_cons,
    List.all_nil, isReported_die, extreme_die]
  simp

/-- What is learned of a node by asking it for both bounds. -/
structure Account where
  bounds : Int × Int
  reports : Extreme → Bool

/-- The account of the node. -/
def account (node : Node α) : Account :=
  ⟨node.range, fun side => node.isReported side⟩

theorem account_eq {β : Type} {one : Node α} {two : Node β}
    (extremes : ∀ side, two.extreme side = one.extreme side)
    (reports : ∀ side, two.isReported side = one.isReported side) : account two = account one := by
  rw [account, account, range_eq extremes, funext reports]

theorem map_bounds_account (nodes : List (Node α)) :
    (nodes.map account).map Account.bounds = nodes.map range := by
  rw [List.map_map]
  rfl

/-! ### Trees that are written alike and have the same bounds -/

/-- The second tree is written like the first, has its bounds and reports the same ones, and is
equal to it but for pools of one and the order of items. -/
structure Mirrors (one two : Node α) : Prop where
  written : two.written = one.written
  writable : two.isWritable = one.isWritable
  extreme : ∀ side, two.extreme side = one.extreme side
  reported : ∀ side, two.isReported side = one.isReported side
  leaves : (one.leaves.map account).Perm (two.leaves.map account)
  rearranged : Rearranged one.bared two.bared

/-- The leaves of both trees have the same bounds. -/
theorem Mirrors.ranges {one two : Node α} (mirrors : Mirrors one two) :
    (one.leaves.map range).Perm (two.leaves.map range) := by
  rw [← map_bounds_account, ← map_bounds_account]
  exact mirrors.leaves.map Account.bounds

/-- What all leaves of one tree report, all leaves of the other report. -/
theorem Mirrors.reports {one two : Node α} (mirrors : Mirrors one two)
    (reports : ∀ leaf ∈ one.leaves, ∀ side, leaf.isReported side = true) :
    ∀ leaf ∈ two.leaves, ∀ side, leaf.isReported side = true := by
  intro leaf mem side
  have shown : account leaf ∈ one.leaves.map account :=
    mirrors.leaves.mem_iff.mpr (List.mem_map_of_mem mem)
  obtain ⟨source, sourceMem, same⟩ := List.mem_map.mp shown
  rw [← reports source sourceMem side]
  exact (congrFun (congrArg Account.reports same) side).symm

/-- What is not a pool is its own only leaf. -/
theorem leaves_perm_of_self {β : Type} {one : Node α} {two : Node β} (self : one.leaves = [one])
    (selfToo : two.leaves = [two]) (same : account two = account one) :
    (one.leaves.map account).Perm (two.leaves.map account) := by
  rw [self, selfToo, List.map_singleton, List.map_singleton, same]

/-- Nodes that are no pools mirror each other if they are written alike, have the same bounds and
report the same, and are equal but for what does not matter. -/
theorem mirrors_of_self {one two : Node α} (self : one.leaves = [one])
    (selfToo : two.leaves = [two])
    (written : two.written = one.written) (writable : two.isWritable = one.isWritable)
    (extreme : ∀ side, two.extreme side = one.extreme side)
    (reported : ∀ side, two.isReported side = true ↔ one.isReported side = true)
    (rearranged : Rearranged one.bared two.bared) : Mirrors one two :=
  have same := fun side => Bool.eq_iff_iff.mpr (reported side)
  ⟨written, writable, extreme, same, leaves_perm_of_self self selfToo (account_eq extreme same),
    rearranged⟩

theorem mirrors_die (d : Die) (slot slot' : α) : Mirrors (die slot d) (die slot' d) := by
  refine mirrors_of_self rfl rfl ?_ ?_ (fun side => ?_) (fun side => ?_) (.die slot slot' d)
  · rw [Node.written, Node.written]
  · rw [Bool.eq_iff_iff, isWritable_die, isWritable_die]
  · rw [extreme_die, extreme_die]
  · rw [isReported_die, isReported_die]

theorem Mirrors.arithmetic {inner inner' : Node α} (mirrors : Mirrors inner inner')
    (slot slot' : α) (operation : Operation) (value : Nat) :
    Mirrors (arithmetic slot operation value inner) (arithmetic slot' operation value inner') := by
  refine mirrors_of_self rfl rfl ?_ ?_
    (extreme_arithmetic_congr mirrors.extreme slot slot' operation value) (fun side => ⟨?_, ?_⟩)
    (.arithmetic slot slot' operation value mirrors.rearranged)
  · rw [Node.written, Node.written, mirrors.written]
  · rw [isWritable_arithmetic, isWritable_arithmetic, mirrors.writable]
  · exact isReported_arithmetic_of (fun side => (mirrors.extreme side).symm)
      (fun side reported => by rwa [← mirrors.reported]) slot' slot operation value
  · exact isReported_arithmetic_of mirrors.extreme
      (fun side reported => by rwa [mirrors.reported]) slot slot' operation value

theorem Mirrors.explosion {inner inner' : Node α} (mirrors : Mirrors inner inner')
    (slot slot' : α) (rule : Explosion) :
    Mirrors (explosion slot rule inner) (explosion slot' rule inner') := by
  refine mirrors_of_self rfl rfl ?_ ?_
    (extreme_explosion_congr mirrors.extreme slot slot' rule rule) (fun side => ⟨?_, ?_⟩)
    (.explosion slot slot' rule mirrors.rearranged)
  · rw [Node.written, Node.written, mirrors.written]
  · rw [isWritable_explosion, isWritable_explosion, mirrors.writable]
  · exact isReported_explosion_of (fun side => (mirrors.extreme side).symm)
      (fun side reported => by rwa [← mirrors.reported]) slot' slot rule rule
  · exact isReported_explosion_of mirrors.extreme
      (fun side reported => by rwa [mirrors.reported]) slot slot' rule rule

/-! ### Pools and selections -/

/-- What decides to which share an item belongs. -/
def key (node : Node α) : Bool × Text :=
  (node.isDie, node.spelling)

theorem map_writtenEach (items : List (Node α)) :
    ((writtenEach items).map fun item => (item.1, item.2.text)) = items.map key := by
  rw [writtenEach_eq_map, List.map_map]
  rfl

theorem flatten_pool (slot : α) {items : List (Node α)} (notOne : items.length ≠ 1) :
    (pool slot items).flatten = pool slot items := by
  unfold flatten
  split
  · next same =>
      cases same
      contradiction
  · rfl

/-- Nothing that matters to a modifier stands at the end of a pool, unless it is one item. -/
theorem pool_writtenEach {items : List (Node α)} (notOne : items.length ≠ 1) :
    Written.pool (writtenEach items) = ⟨Written.poolText (writtenEach items), false, 0⟩ := by
  unfold Written.pool
  split
  · next same =>
      have single := congrArg List.length same
      rw [writtenEach_eq_map, List.length_map] at single
      contradiction
  · rfl

/-- The text of a pool is its shares with plus signs between them. -/
theorem spelling_pool {items : List (Node α)} {shares : List Share}
    (shared : Share.ofItems (items.map key) = shares) (nonempty : shares ≠ []) (slot : α) :
    (pool slot items).spelling = Text.join ['+'] (shares.map Share.spelling) := by
  have text : (pool slot items).spelling = Written.poolText (writtenEach items) := by
    rw [Node.spelling, Node.written]
    unfold Written.pool
    split <;> rfl
  rw [text, Written.poolText, map_writtenEach, shared]
  simp [nonempty]

/-- The items of the second list mirror those of the first in another order, and have the
same shares. -/
structure MirrorsEach (items items' : List (Node α)) : Prop where
  shares : Share.ofItems (items'.map key) = Share.ofItems (items.map key)
  each : ∃ middle, items.Perm middle ∧ List.Forall₂ Mirrors middle items'

namespace MirrorsEach

variable {items items' : List (Node α)}

theorem length (mirrors : MirrorsEach items items') : items'.length = items.length := by
  obtain ⟨middle, perm, each⟩ := mirrors.each
  rw [perm.length_eq, each.length_eq]

/-- A single item is mirrored by a single item. -/
theorem one_or (mirrors : MirrorsEach items items') :
    (∃ item item', items = [item] ∧ items' = [item'] ∧ Mirrors item item') ∨
      (items.length ≠ 1 ∧ items'.length ≠ 1) := by
  by_cases single : items.length = 1
  · obtain ⟨item, rfl⟩ := List.length_eq_one_iff.mp single
    obtain ⟨middle, perm, each⟩ := mirrors.each
    obtain rfl : middle = [item] := List.perm_singleton.mp perm.symm
    cases each with
    | cons first rest =>
        cases rest
        exact .inl ⟨item, _, rfl, rfl, first⟩
  · exact .inr ⟨single, mirrors.length ▸ single⟩

theorem extremes (mirrors : MirrorsEach items items') (side : Extreme) :
    (items.map (extreme side)).Perm (items'.map (extreme side)) := by
  obtain ⟨-, middle, perm, each⟩ := mirrors
  have same : middle.map (extreme side) = items'.map (extreme side) := by
    clear perm
    induction each with
    | nil => rfl
    | cons first _ ih => rw [List.map_cons, List.map_cons, ih, first.extreme]
  exact (perm.map _).trans (List.Perm.of_eq same)

/-- What all items report, all items report that mirror them, and the other way round. -/
theorem reported_iff (mirrors : MirrorsEach items items') (side : Extreme) :
    (∀ item ∈ items', item.isReported side = true) ↔
      ∀ item ∈ items, item.isReported side = true := by
  obtain ⟨-, middle, perm, each⟩ := mirrors
  have inMiddle : (∀ item ∈ items', item.isReported side = true) ↔
      ∀ item ∈ middle, item.isReported side = true := by
    clear perm
    induction each with
    | nil => rfl
    | cons first _ ih => rw [List.forall_mem_cons, List.forall_mem_cons, ih, first.reported]
  rw [inMiddle]
  exact forall_congr' fun item => by rw [perm.mem_iff]

theorem leaves (mirrors : MirrorsEach items items') :
    ((items.flatMap Node.leaves).map account).Perm ((items'.flatMap Node.leaves).map account) := by
  obtain ⟨-, middle, perm, each⟩ := mirrors
  refine ((perm.flatMap_right Node.leaves).map account).trans ?_
  clear perm
  induction each with
  | nil => exact .nil
  | cons first _ ih =>
      rw [List.flatMap_cons, List.flatMap_cons, List.map_append, List.map_append]
      exact first.leaves.append ih

theorem rearranged (mirrors : MirrorsEach items items') :
    ∃ middle, (items.map bared).Perm middle ∧
      List.Forall₂ Rearranged middle (items'.map bared) := by
  obtain ⟨middle, perm, each⟩ := mirrors.each
  refine ⟨middle.map bared, perm.map bared, ?_⟩
  rw [List.forall₂_map_left_iff, List.forall₂_map_right_iff]
  exact each.imp fun _ _ same => same.rearranged

theorem poolText (mirrors : MirrorsEach items items') :
    Written.poolText (writtenEach items') = Written.poolText (writtenEach items) := by
  rw [Written.poolText, Written.poolText, map_writtenEach, map_writtenEach, mirrors.shares]

theorem pooled (mirrors : MirrorsEach items items') :
    Written.pool (writtenEach items') = Written.pool (writtenEach items) := by
  have text := mirrors.poolText
  rcases mirrors.one_or with ⟨item, item', rfl, rfl, same⟩ | ⟨notOne, notOneToo⟩
  · simp only [writtenEach] at text ⊢
    rw [Written.pool, Written.pool, text, same.written]
  · rw [pool_writtenEach notOne, pool_writtenEach notOneToo, text]

/-- The pools have the same counts in their texts. -/
theorem writable (mirrors : MirrorsEach items items') (slot slot' : α) :
    (pool slot' items').isWritable = (pool slot items).isWritable := by
  have counted : counts (writtenEach items') = counts (writtenEach items) := by
    rw [counts, counts, map_writtenEach, map_writtenEach, mirrors.shares]
  obtain ⟨-, middle, perm, each⟩ := mirrors
  have same : middle.all isWritable = items'.all isWritable := by
    clear perm counted
    induction each with
    | nil => rfl
    | cons first _ ih => rw [List.all_cons, List.all_cons, ih, first.writable]
  rw [isWritable_pool, isWritable_pool, counted, perm.all_eq, same]

end MirrorsEach

theorem Mirrors.pool {items items' : List (Node α)} (mirrors : MirrorsEach items items')
    (slot slot' : α) : Mirrors (pool slot items) (pool slot' items') where
  written := by
    rw [Node.written, Node.written]
    exact mirrors.pooled
  writable := mirrors.writable slot slot'
  extreme side := by
    rw [extreme_pool, extreme_pool]
    exact (mirrors.extremes side).symm.sum_eq
  reported side := Bool.eq_iff_iff.mpr
    ⟨isReported_pool_of (mirrors.extremes side).symm (mirrors.reported_iff side).mp slot' slot,
      isReported_pool_of (mirrors.extremes side) (mirrors.reported_iff side).mpr slot slot'⟩
  leaves := by
    rw [leaves_pool, leaves_pool]
    exact mirrors.leaves
  rearranged := by
    obtain ⟨middle, perm, each⟩ := mirrors.rearranged
    rw [bared, bared, baredEach_eq_map, baredEach_eq_map]
    rcases mirrors.one_or with ⟨item, item', rfl, rfl, same⟩ | ⟨notOne, notOneToo⟩
    · exact same.rearranged
    · rw [flatten_pool slot (by simpa using notOne), flatten_pool slot' (by simpa using notOneToo)]
      exact .pool slot slot' perm each

theorem Mirrors.selection {items items' : List (Node α)} (mirrors : MirrorsEach items items')
    (slot slot' : α) (s : Selection) (threshold : Nat) (poolSlot poolSlot' : α) :
    Mirrors (selection slot s threshold poolSlot items)
      (selection slot' s threshold poolSlot' items') := by
  refine mirrors_of_self rfl rfl ?_ ?_
    (extreme_selection_congr mirrors.extremes slot slot' s threshold poolSlot poolSlot')
    (fun side => ⟨?_, ?_⟩) ?_
  · rw [Node.written, Node.written, mirrors.pooled]
  · rw [isWritable_selection, isWritable_selection, mirrors.writable poolSlot poolSlot']
  · exact isReported_selection_of (fun side => (mirrors.extremes side).symm)
      (mirrors.reported_iff side).mp slot' slot s threshold poolSlot' poolSlot
  · exact isReported_selection_of mirrors.extremes
      (mirrors.reported_iff side).mpr slot slot' s threshold poolSlot poolSlot'
  · obtain ⟨middle, perm, each⟩ := mirrors.rearranged
    rw [bared, bared, baredEach_eq_map, baredEach_eq_map]
    exact .selection slot slot' s threshold poolSlot poolSlot' perm each

/-! ### A pool of one and its item -/

/-- Whatever a pool of one shares with its item, flattening leaves unchanged. -/
theorem flatten_eq_of_pool_one {β : Type} {f : Node α → β}
    (same : ∀ slot item, f (pool slot [item]) = f item) (node : Node α) :
    f node.flatten = f node := by
  unfold flatten
  split
  · next slot item => exact (same slot item).symm
  · rfl

@[simp] theorem written_flatten (node : Node α) : node.flatten.written = node.written := by
  refine flatten_eq_of_pool_one (fun slot item => ?_) node
  have text : Written.poolText [(item.isDie, item.written)] = item.written.text := by
    cases sort : item.isDie <;>
      simp [Written.poolText, Share.ofItems, Share.add, Text.join, Share.spelling]
  rw [Node.written, writtenEach, writtenEach, Written.pool, text]

@[simp] theorem extreme_flatten (side : Extreme) (node : Node α) :
    node.flatten.extreme side = node.extreme side := by
  refine flatten_eq_of_pool_one (fun slot item => ?_) node
  rw [extreme_pool, List.map_singleton, List.sum_singleton]

@[simp] theorem leaves_flatten (node : Node α) : node.flatten.leaves = node.leaves := by
  refine flatten_eq_of_pool_one (fun slot item => ?_) node
  simp

@[simp] theorem isWritable_flatten (node : Node α) : node.flatten.isWritable = node.isWritable := by
  refine flatten_eq_of_pool_one (fun slot item => ?_) node
  have one : counts (writtenEach [item]) = [1] := by
    cases sort : item.isDie <;> simp [counts, writtenEach, Share.ofItems, Share.add, sort]
  have counted : (counts (writtenEach [item])).all Numeral.isWritable = true := by
    rw [one]
    decide
  rw [isWritable_pool, counted, Bool.true_and, List.all_cons, List.all_nil, Bool.and_true]

@[simp] theorem bared_flatten (node : Node α) : node.flatten.bared = node.bared := by
  refine flatten_eq_of_pool_one (fun slot item => ?_) node
  rfl

/-- If the node is a pool of one, its item is a die. -/
def LoneDie (node : Node α) : Prop :=
  ∀ slot item, node = pool slot [item] → item.isDie = true

theorem isReported_flatten {node : Node α} (lone : node.LoneDie) (side : Extreme) :
    node.flatten.isReported side = node.isReported side := by
  unfold flatten
  split
  · next slot item =>
      have isDie := lone slot item rfl
      cases item with
      | die slot' d => exact (isReported_pool_die side slot slot' d).symm
      | _ => contradiction
  · rfl

/-- It does not matter whether a pool of one die or the die mirrors a tree. -/
theorem mirrors_flatten {one two : Node α} (lone : two.LoneDie) :
    Mirrors one two.flatten ↔ Mirrors one two := by
  constructor
  · rintro ⟨written, writable, extreme, reported, leaves, rearranged⟩
    exact ⟨by simpa using written, by simpa using writable, by simpa using extreme,
      by simpa [isReported_flatten lone] using reported, by simpa using leaves,
      by simpa using rearranged⟩
  · rintro ⟨written, writable, extreme, reported, leaves, rearranged⟩
    exact ⟨by simpa using written, by simpa using writable, by simpa using extreme,
      by simpa [isReported_flatten lone] using reported, by simpa using leaves,
      by simpa using rearranged⟩

end DicePool.Node
