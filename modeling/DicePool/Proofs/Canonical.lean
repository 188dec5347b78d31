/-
Module: DicePool.Proofs.Canonical
Purpose: The shape of the trees that texts are built into.
Main exports: Node.children, Node.Canonical, Node.Assembled.of_mem_subtrees,
  Node.Assembled.constructed, Workshop.checked_of_build, Workshop.canonical_of_build
-/
import DicePool.Proofs.Assembling

/-!
What `Node.Assembled` says of a node, it says of every node of its tree, and it says enough
for each of them to be a node that could be put together: `Node.Assembled.of_mem_subtrees`,
`Node.Assembled.constructed`.

The shape itself is stated of what stands directly inside a node, `Node.children`.  A text
is built into a tree in which every node is canonical, and what cannot be said of the
children of a node, because it has no parent, is said of the whole tree:
`Workshop.canonical_of_build`.
-/

namespace DicePool

namespace Node

variable {α : Type}

/-- The nodes that stand directly inside the node: the items of a pool, or what a modifier
is applied to. -/
def children : Node α → List (Node α)
  | die _ _ => []
  | pool _ items => items
  | arithmetic _ _ _ inner => [inner]
  | selection _ _ _ poolSlot items => [pool poolSlot items]
  | explosion _ _ inner => [inner]

/-- The node suffices for a selection with this threshold: it is a pool with at least as many
items as are kept, and with more than are dropped. -/
structure Suffices (node : Node α) (s : Selection) (threshold : Nat) : Prop where
  isPool : node.isPool = true
  keeps : s = .keepHighest ∨ s = .keepLowest → threshold ≤ node.children.length
  drops : s = .dropHighest ∨ s = .dropLowest → threshold < node.children.length

/-- What stands directly inside a node of a tree without needless pools. -/
structure Canonical (node : Node α) : Prop where
  /-- A pool holds no pools. -/
  noPool : node.isPool = true → ∀ child ∈ node.children, child.isPool = false
  /-- Nothing holds an empty pool. -/
  noEmptyPool : ∀ child ∈ node.children, child.isEmptyPool = false
  /-- A pool of one stands only in a modifier, and its item is a die. -/
  poolOfOne : ∀ slot item, pool slot [item] ∈ node.children →
    node.inner? = some (pool slot [item]) ∧ item.isDie = true
  /-- A selection is applied to a pool that suffices for it. -/
  selects : ∀ slot s threshold poolSlot items,
    node = selection slot s threshold poolSlot items →
      ∃ inner, node.inner? = some inner ∧ inner.Suffices s threshold

theorem suffices_of_fits {slot : α} {items : List (Node α)} {s : Selection}
    {threshold : Nat} (fits : s.fits threshold items.length = true) :
    (Node.pool slot items).Suffices s threshold where
  isPool := rfl
  keeps kept := by
    rcases kept with rfl | rfl <;> exact Int.ofNat_le.mp (of_decide_eq_true fits)
  drops dropped := by
    rcases dropped with rfl | rfl <;> exact Int.ofNat_lt.mp (of_decide_eq_true fits)

/-! ### Assembled nodes -/

namespace Assembled

variable {limit : Int} {node : Node Unit}

/-- Every node of the tree of an assembled node is assembled. -/
theorem of_mem_subtrees (built : node.Assembled limit) :
    ∀ sub ∈ node.subtrees, sub.Assembled limit := by
  induction built with
  | @die d checked =>
      intro sub mem
      obtain rfl : sub = Node.die () d := by simpa [subtrees] using mem
      exact .die checked
  | @pool items each noPool several ih =>
      intro sub mem
      rcases List.mem_cons.mp mem with rfl | inside
      · exact .pool each noPool several
      · rw [inside_pool] at inside
        obtain ⟨item, itemMem, subMem⟩ := List.mem_flatMap.mp inside
        exact ih item itemMem sub subMem
  | arithmetic operation value built noDivision ih =>
      intro sub mem
      rcases List.mem_cons.mp mem with rfl | inside
      · exact .arithmetic operation value built noDivision
      · exact ih sub (by simpa using inside)
  | selection s threshold built positive fits ih =>
      intro sub mem
      rcases List.mem_cons.mp mem with rfl | inside
      · exact .selection s threshold built positive fits
      · exact ih sub (by simpa using inside)
  | explosion comparison threshold built possible explodes ih =>
      intro sub mem
      rcases List.mem_cons.mp mem with rfl | inside
      · exact .explosion comparison threshold built possible explodes
      · exact ih sub (by simpa using inside)

/-- An assembled node could be put together. -/
theorem constructed (built : node.Assembled limit) : node.Constructed := by
  induction built with
  | @die d checked =>
      cases d with
      | sided sides =>
          exact .sided () sides (Die.withSides_eq_ok.mpr ⟨Int.ofNat_le.mpr checked, by simp⟩)
      | percentile => exact .percentile ()
      | fudge => exact .fudge ()
      | custom faces => exact .custom () faces (Die.withFaces_eq_ok.mpr ⟨checked, rfl⟩)
  | @pool items each noPool several ih =>
      have kept : ofItems () items = Node.pool () items := by
        rw [ofItems, List.filter_eq_self.mpr]
        intro item mem
        simpa using isEmptyPool_of_not_isPool (noPool item mem)
      rw [← kept]
      exact .pool () ih
  | arithmetic operation value _ noDivision ih =>
      refine .arithmetic () [operation.sign] value ih (arithmetic?_eq_ok.mpr ⟨operation, ?_,
        Int.natCast_nonneg value, by simpa using noDivision, rfl⟩)
      cases operation <;> rfl
  | selection s threshold _ positive fits ih =>
      refine .selection () s.spelling threshold ih (selection?_eq_ok.mpr ⟨s, (), _, ?_, rfl,
        s.ne_nil_of_fits positive fits, Int.ofNat_le.mpr positive, fits, rfl⟩)
      cases s <;> rfl
  | explosion comparison threshold built possible explodes ih =>
      refine .explosion (fun _ => false) () [comparison.sign] threshold limit 0 ih
        ((explosion?_eq_ok_iff_explodes built.checked).mpr
          ⟨comparison, ?_, possible, explodes, rfl⟩)
      cases comparison <;> rfl

theorem not_isEmptyPool (built : node.Assembled limit) : node.isEmptyPool = false := by
  cases built with
  | pool _ _ several =>
      rcases several with ⟨d, rfl⟩ | several
      · rfl
      · obtain ⟨item, rest, rfl⟩ := List.exists_cons_of_length_pos (Nat.zero_lt_of_lt several)
        rfl
  | _ => rfl

/-- An assembled pool of one holds a die. -/
theorem isDie_of_pool_one {item : Node Unit} (built : (Node.pool () [item]).Assembled limit) :
    item.isDie = true := by
  cases built with
  | pool _ _ several =>
      rcases several with ⟨d, single⟩ | several
      · cases single
        rfl
      · contradiction

theorem loneDie (built : node.Assembled limit) : node.LoneDie := by
  rintro slot item rfl
  exact built.isDie_of_pool_one

/-- A modifier is canonical if the node it is applied to is assembled and suffices for it. -/
theorem canonical_of_inner {inner : Node Unit} (built : inner.Assembled limit)
    (children : node.children = [inner]) (applied : node.inner? = some inner)
    (noPool : node.isPool = false)
    (enough : ∀ slot s threshold poolSlot items,
      node = Node.selection slot s threshold poolSlot items → inner.Suffices s threshold) :
    node.Canonical where
  noPool isPool := by
    rw [noPool] at isPool
    contradiction
  noEmptyPool child mem := by
    obtain rfl : child = inner := by simpa [children] using mem
    exact built.not_isEmptyPool
  poolOfOne slot item mem := by
    obtain rfl : Node.pool slot [item] = inner := by simpa [children] using mem
    exact ⟨applied, built.isDie_of_pool_one⟩
  selects slot s threshold poolSlot items same :=
    ⟨inner, applied, enough slot s threshold poolSlot items same⟩

theorem canonical (built : node.Assembled limit) : node.Canonical := by
  cases built with
  | die checked =>
      exact ⟨by simp [children], by simp [children], by simp [children], by simp⟩
  | @pool items each noPool several =>
      refine ⟨fun _ => noPool, fun item mem => isEmptyPool_of_not_isPool (noPool item mem), ?_,
        by simp⟩
      intro slot item mem
      exact absurd (noPool _ mem) (by simp [isPool])
  | arithmetic operation value built noDivision =>
      exact canonical_of_inner built rfl rfl rfl (by simp)
  | selection s threshold built positive fits =>
      refine canonical_of_inner built rfl rfl rfl ?_
      intro slot s' threshold' poolSlot items' same
      cases same
      exact suffices_of_fits fits
  | explosion comparison threshold built possible explodes =>
      exact canonical_of_inner built rfl rfl rfl (by simp)

end Assembled

end Node

namespace Workshop

open Node

/-- Every node of a built tree is checked. -/
theorem checked_of_build (shop : Workshop) {s : Text} {node : Node Unit}
    (built : (shop.build s).result = .ok node) : ∀ sub ∈ node.subtrees, sub.Checked := by
  rcases shop.assembled_and_flat_of_build built with ⟨-, rfl⟩ | ⟨-, assembled, -⟩
  · simp [subtrees, Checked]
  · exact assembled.checked

/-- The tree of a text has no needless pools.  No node of it holds an empty pool, and the
tree is one only if the text is blank; a pool holds no pools; a pool of one is neither the
whole tree nor an item of a pool, but stands in a modifier and holds a die; and selections
are applied to pools, which have enough items for them. -/
theorem canonical_of_build {shop : Workshop} {s : Text} {node : Node Unit}
    (built : (shop.build s).result = .ok node) :
    (node.isEmptyPool = true ↔ Text.trim s = []) ∧ (∀ slot item, node ≠ Node.pool slot [item]) ∧
      ∀ sub ∈ node.subtrees, sub.Canonical := by
  rcases shop.assembled_and_flat_of_build built with ⟨blank, rfl⟩ | ⟨nonempty, assembled, flat⟩
  · refine ⟨by simp [blank, isEmptyPool], by simp, ?_⟩
    intro sub mem
    obtain rfl : sub = Node.pool () [] := by simpa [subtrees] using mem
    exact ⟨by simp [children], by simp [children], by simp [children], by simp⟩
  · refine ⟨?_, ?_, ?_⟩
    · simp [assembled.not_isEmptyPool, nonempty]
    · rintro slot item rfl
      exact absurd (flat _ rfl) (by simp)
    · exact fun sub mem => (assembled.of_mem_subtrees sub mem).canonical

/-- In `(2d+d8)kh2+(d4*3)!>5` the first parentheses hold a pool, which is kept for the
selection, and the second ones a term, which is exploded as it is. -/
theorem canonical_of_kept_and_exploded_dice :
    let shop : Workshop := ⟨some ['6'], 100, false⟩
    let s := ['(', '2', 'd', '+', 'd', '8', ')', 'k', 'h', '2', '+', '(', 'd', '4', '*', '3', ')',
      '!', '>', '5']
    let node : Node Unit := .pool ()
      [.selection () .keepHighest 2 ()
        [.die () (.sided 6), .die () (.sided 6), .die () (.sided 8)],
        .explosion () ⟨.greater, 5, 100⟩
          (.arithmetic () .multiply 3 (.pool () [.die () (.sided 4)]))]
    (shop.build s).result = .ok node ∧
      (node.isEmptyPool = true ↔ Text.trim s = []) ∧ (∀ slot item, node ≠ Node.pool slot [item]) ∧
      ∀ sub ∈ node.subtrees, sub.Canonical := by
  intro shop s node
  have built : (shop.build s).result = .ok node :=
    shop.build_eq_ok.mpr ⟨_, rfl, rfl, by decide⟩
  exact ⟨built, canonical_of_build built⟩

end Workshop

end DicePool
