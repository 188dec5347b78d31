/-
Module: DicePool.Proofs.Rereading
Purpose: What the text of a node is read back as, if pools stand in pools.
Main exports: Node.Expressible, Node.KeepsApart, Workshop.Reread, Workshop.reread,
  Session.spellings_keep_bounds
-/
import DicePool.Proofs.Covering
import DicePool.Proofs.Making
import DicePool.Proofs.RoundTrip

/-!
A pool inside a pool is written without parentheses, so what is read back has its items in the
pool around it, and is in general another tree.  What the two trees have in common is what their
leaves tell of themselves (`Node.Keeps`), and from this come the bounds of pools, arithmetic and
explosions.  The lines of the second tree are fewer, so that it may even report where the first
does not.

A selection needs more, because it counts items and not leaves.  Unless each of its items has one
leaf, it is read back as a selection from other items, and a selection from a pool of one is read
back as a selection from no pool, unless the item is a die: `Node.KeepsApart`.  Where all
selections keep their items apart, the text of a node is read back with the bounds of the node
(`Session.spellings_keep_bounds`), and without that it need not be.
-/

namespace DicePool

namespace Node

variable {α : Type}

/-- The node can be expressed: arithmetic on an empty pool has no text that is read, no
threshold of a text is below zero, and the leaves of a pool are so few that their number can be
written. -/
def Expressible : Node α → Prop
  | pool _ items => Numeral.isWritable (leavesEach items).length = true
  | arithmetic _ _ _ inner => inner.isEmptyPool = false
  | explosion _ rule _ => 0 ≤ rule.threshold
  | _ => True

/-- The items of a selection are still its items when they are written: none of them is a pool
of several, and one that is alone is a die. -/
def KeepsApart : Node α → Prop
  | selection _ _ _ _ items =>
      (∀ item ∈ items, item.leaves.length = 1) ∧
        ∀ item, items = [item] → ∀ leaf ∈ item.leaves, leaf.isDie = true
  | _ => True

theorem Expressible.few_leaves {node : Node α} (expressible : node.Expressible) :
    Numeral.isWritable node.leaves.length = true := by
  cases node with
  | pool slot items => exact expressible
  | _ =>
      rw [leaves_of_not_isPool rfl, List.length_singleton]
      decide

/-! ### Leaves -/

theorem flatMap_leaves_poured (node : Node α) : node.poured.flatMap leaves = node.leaves := by
  cases node with
  | pool slot items => rw [leaves_pool, poured]
  | _ => simp [poured, leaves]

theorem not_isEmptyPool_of_mem_leaves {node leaf : Node α} (mem : leaf ∈ node.leaves) :
    node.isEmptyPool = false := by
  cases node with
  | pool slot items =>
      cases items with
      | nil => simp at mem
      | cons => rfl
  | _ => rfl

/-- A checked node has leaves, unless it is an empty pool. -/
theorem leaves_ne_nil {node : Node α} (checked : ∀ sub ∈ node.subtrees, sub.Checked)
    (nonempty : node.isEmptyPool = false) : node.leaves ≠ [] := by
  revert nonempty
  refine induction_everywhere (motive := fun node => node.isEmptyPool = false → node.leaves ≠ [])
    (fun node self ih nonempty => ?_) checked
  cases node with
  | pool slot items =>
      cases items with
      | nil => contradiction
      | cons item rest =>
          have mem : item ∈ (pool slot (item :: rest)).inside :=
            item_mem_inside_pool slot List.mem_cons_self
          have first := ih item mem (self item List.mem_cons_self)
          rw [leaves_pool, List.flatMap_cons]
          exact List.append_ne_nil_of_left_ne_nil first _
  | _ => simp [leaves]

/-- Pools of one are written like their item. -/
theorem written_of_leaves_singleton {node leaf : Node α}
    (checked : ∀ sub ∈ node.subtrees, sub.Checked) (single : node.leaves = [leaf]) :
    node.written = leaf.written := by
  induction node with
  | pool slot items ih =>
      have item : ∀ item ∈ items, item.leaves ≠ [] ∧ ∀ sub ∈ item.subtrees, sub.Checked := by
        intro item mem
        have below : ∀ sub ∈ item.subtrees, sub.Checked := fun sub subMem =>
          checked sub (subtrees_subset (List.mem_cons_of_mem _ (item_mem_inside_pool slot mem))
            subMem)
        exact ⟨leaves_ne_nil below (checked _ (self_mem_subtrees _) item mem), below⟩
      rw [leaves_pool] at single
      match items, ih, item, single with
      | [one], ih, item, single =>
          rw [← written_flatten]
          exact ih one (by simp) (item one (by simp)).2 (by simpa using single)
      | one :: two :: rest, _, item, single =>
          have lengths := congrArg List.length single
          have first := List.length_pos_of_ne_nil (item one (by simp)).1
          have second := List.length_pos_of_ne_nil (item two (by simp)).1
          simp only [List.flatMap_cons, List.length_append, List.length_singleton] at lengths
          omega
  | _ =>
      obtain rfl := List.singleton_inj.mp single
      rfl

end Node

namespace Workshop

open Node

variable {shop : Workshop} {α : Type}

/-! ### Texts and what leaves tell -/

/-- The text is that of an expression whose node has leaves that cover these and can be written. -/
def Tells (shop : Workshop) (s : Text) (accounts : List Account) : Prop :=
  ∃ again, shop.Means s again ∧ Account.CoversEach accounts (again.leaves.map account) ∧
    ∀ leaf ∈ again.leaves, leaf.isWritable = true

/-- What stands on both sides of a plus sign is read with the leaves of both. -/
theorem Tells.append {s t : Text} {accounts others : List Account} (tells : shop.Tells s accounts)
    (tellsToo : shop.Tells t others) : shop.Tells (s ++ '+' :: t) (accounts ++ others) := by
  obtain ⟨one, means, covers, writable⟩ := tells
  obtain ⟨two, meansToo, coversToo, writableToo⟩ := tellsToo
  have leaves : (Node.pool () (one.poured ++ two.poured)).leaves = one.leaves ++ two.leaves := by
    rw [leaves_pool, List.flatMap_append, flatMap_leaves_poured, flatMap_leaves_poured]
  refine ⟨_, means.join meansToo, ?_, ?_⟩
  · rw [leaves, List.map_append]
    exact covers.append coversToo
  · rw [leaves, List.forall_mem_append]
    exact ⟨writable, writableToo⟩

/-- Texts with plus signs between them are read with the leaves of them all. -/
theorem tells_join {β : Type} {text : β → Text} {accounts : β → List Account} {parts : List β}
    (nonempty : parts ≠ []) (tells : ∀ part ∈ parts, shop.Tells (text part) (accounts part)) :
    shop.Tells (Text.join ['+'] (parts.map text)) (parts.flatMap accounts) := by
  induction parts with
  | nil => contradiction
  | cons part rest ih =>
      have first := tells part List.mem_cons_self
      cases rest with
      | nil => simpa [Text.join] using first
      | cons next rest =>
          have others := ih (by simp) fun part mem => tells part (List.mem_cons_of_mem _ mem)
          rw [List.map_cons, List.map_cons, Text.join, ← List.map_cons, List.flatMap_cons]
          simpa using first.append others

/-! ### Reading back -/

/-- The text of the node is one part, or it is the sum of several, and the leaves of the node that
it is built into cover those of the node. -/
inductive Reread (shop : Workshop) (node : Node α) : Prop where
  | part {again : Node Unit} (yields : shop.Yields node.written again)
      (keeps : node.Keeps again) : Reread shop node
  | sum (plus : '+' ∈ node.spelling) (tells : shop.Tells node.spelling (node.leaves.map account)) :
      Reread shop node

/-- The text of a node is the text of an expression. -/
theorem Reread.tells {node : Node α} (reread : shop.Reread node) :
    shop.Tells node.spelling (node.leaves.map account) := by
  cases reread with
  | part yields keeps =>
      refine ⟨_, yields.means, ?_, ?_⟩
      · rw [leaves_flatten]
        exact keeps.leaves
      · rw [leaves_flatten]
        exact keeps.writable
  | sum plus tells => exact tells

/-- A modifier puts sums in parentheses, and finds a part before it. -/
theorem Reread.exists_enclosed {node : Node α} (reread : shop.Reread node) (wraps : Bool)
    (noPlus : wraps = false → '+' ∉ node.spelling) :
    ∃ again, shop.Yields (enclosed wraps node.written) again ∧ node.Keeps again := by
  cases wraps with
  | true =>
      obtain ⟨again, means, covers, writable⟩ := reread.tells
      exact ⟨again, means.yields, covers, writable⟩
  | false =>
      cases reread with
      | part yields keeps => exact ⟨_, yields, keeps⟩
      | sum plus => exact absurd plus (noPlus rfl)

/-- The leaves of a pool of dice are these dice. -/
theorem leaves_dice (d : Die) (count : Nat) :
    (Node.pool () (List.replicate count (die () d))).leaves = List.replicate count (die () d) := by
  rw [leaves_pool]
  simp [List.flatMap_replicate, leaves]

theorem writable_of_mem_leaves_dice {d : Die} (writable : d.IsWritable) (count : Nat) :
    ∀ leaf ∈ (Node.pool () (List.replicate count (die () d))).leaves, leaf.isWritable = true := by
  rw [leaves_dice]
  intro leaf mem
  rw [List.eq_of_mem_replicate mem]
  exact isWritable_die.mpr writable

/-- So many equal dice are one part, however the node with such leaves is put together. -/
theorem reread_dice {node : Node α} {d : Die} {count : Nat} (checked : d.Checked)
    (writable : d.IsWritable) (positive : 1 ≤ count) (counted : Numeral.isWritable count = true)
    (written : node.written = ⟨Share.spelling ⟨d.spelling, true, count⟩, false, 0⟩)
    (leaves : (node.leaves.map account).Perm (List.replicate count (account (die () d)))) :
    shop.Reread node := by
  have yields : shop.Yields _ _ := yields_dice checked writable positive counted
  rw [← written] at yields
  refine .part yields ⟨?_, ?_⟩
  · rw [leaves_dice, List.map_replicate]
    exact .of_perm leaves
  · exact writable_of_mem_leaves_dice writable count

theorem reread_die {d : Die} (checked : d.Checked) (writable : d.IsWritable) (slot : α) :
    shop.Reread (die slot d) := by
  refine reread_dice checked writable (le_refl 1) (by decide) (by rw [Node.written]; rfl)
    (List.Perm.of_eq ?_)
  rw [leaves_of_not_isPool rfl, List.map_singleton, account_die]
  rfl

theorem Reread.arithmetic {inner : Node α} (reread : shop.Reread inner)
    (few : Numeral.isWritable inner.leaves.length = true) (slot : α)
    (operation : DicePool.Operation) {value : Nat}
    (noDivision : ¬(operation = .divide ∧ value = 0)) (counted : Numeral.isWritable value = true) :
    shop.Reread (Node.arithmetic slot operation value inner) := by
  obtain ⟨again, yields, keeps⟩ :=
    reread.exists_enclosed inner.written.wrapsForOperation plus_notMem_of_not_wrapsForOperation
  have operated := yields.operated operation noDivision counted
  refine .part (by rwa [Node.written]) (keeps_of_not_isPool rfl rfl (account_covers ?_ ?_) ?_)
  · exact extreme_arithmetic_congr keeps.extreme slot () operation value
  · exact fun _ => isReported_arithmetic_of keeps.extreme (keeps.reports yields.assembled) slot ()
      operation value
  · rw [isWritable_arithmetic, counted, keeps.isWritable yields.assembled few]
    rfl

theorem Reread.explosion {inner : Node α} (reread : shop.Reread inner)
    (few : Numeral.isWritable inner.leaves.length = true) (slot : α)
    {rule : Explosion} (natural : 0 ≤ rule.threshold)
    (counted : Numeral.isWritable rule.threshold = true) (possible : 0 ≤ shop.limit)
    (explodes : inner.Explodes rule) : shop.Reread (Node.explosion slot rule inner) := by
  obtain ⟨comparison, threshold, limit⟩ := rule
  obtain ⟨threshold, rfl⟩ := Int.eq_ofNat_of_zero_le natural
  obtain ⟨again, yields, keeps⟩ :=
    reread.exists_enclosed inner.written.wrapsForAlgorithm plus_notMem_of_not_wrapsForAlgorithm
  have exploded := yields.exploded limit counted yields.assembled.checked possible
    (keeps.explodes explodes _)
  refine .part (by rwa [Node.written]) (keeps_of_not_isPool rfl rfl (account_covers ?_ ?_) ?_)
  · exact extreme_explosion_congr keeps.extreme slot () _ _
  · exact fun _ =>
      isReported_explosion_of keeps.extreme (keeps.reports yields.assembled) slot () _ _
  · rw [isWritable_explosion, counted, keeps.isWritable yields.assembled few]
    rfl

/-! ### Pools -/

/-- What of an item shows in the pool: its key and what its leaves tell. -/
structure Card where
  key : Bool × Text
  accounts : List Account

/-- The card of an item. -/
def card (item : Node α) : Card :=
  ⟨key item, item.leaves.map account⟩

theorem map_key_card (items : List (Node α)) : (items.map card).map Card.key = items.map key := by
  rw [List.map_map]
  rfl

theorem flatMap_accounts_card (items : List (Node α)) :
    (items.map card).flatMap Card.accounts = (items.flatMap leaves).map account := by
  rw [List.flatMap_map, List.map_flatMap]
  rfl

/-- Dice that are written alike have the same card. -/
theorem card_eq_of_key_eq {one two : Node α} (checked : one.Checked) (checkedToo : two.Checked)
    (isDie : (key one).1 = true) (same : key one = key two) : card one = card two := by
  have isDieToo : (key two).1 = true := by rw [← same, isDie]
  cases one with
  | die slot d =>
      cases two with
      | die slot' d' =>
          obtain rfl := Die.spelling_injective checked checkedToo (congrArg Prod.snd same)
          rw [card, card, same, leaves_of_not_isPool rfl, leaves_of_not_isPool rfl,
            List.map_singleton, List.map_singleton, account_die slot, account_die slot']
      | _ => contradiction
  | _ => contradiction

/-- A share is read with the leaves of its items. -/
theorem tells_bundle {item : Node α} (reread : shop.Reread item) (checked : item.Checked)
    (writable : item.isWritable = true) {count : Nat} (positive : 1 ≤ count)
    (counted : Numeral.isWritable count = true) (alone : item.isDie = false → count = 1) :
    shop.Tells (Share.spelling ⟨item.spelling, item.isDie, count⟩)
      ((List.replicate count (card item)).flatMap Card.accounts) := by
  cases sort : item.isDie with
  | false =>
      obtain rfl := alone sort
      simpa [Share.spelling, card] using reread.tells
  | true =>
      cases item with
      | die slot d =>
          have fits := isWritable_die.mp writable
          have yields : shop.Yields _ _ := yields_dice checked fits positive counted
          refine ⟨_, yields.means, ?_, ?_⟩
          · rw [leaves_flatten, leaves_dice, List.map_replicate]
            refine .of_perm (List.Perm.of_eq ?_)
            simp [card, leaves, account_die slot, List.flatMap_replicate]
          · rw [leaves_flatten]
            exact writable_of_mem_leaves_dice fits count
      | _ => contradiction

theorem Tells.of_perm {s : Text} {accounts others : List Account} (tells : shop.Tells s accounts)
    (perm : others.Perm accounts) : shop.Tells s others := by
  obtain ⟨again, means, covers, writable⟩ := tells
  exact ⟨again, means, (Account.CoversEach.of_perm perm).trans covers, writable⟩

/-- A pool of one is read as its item. -/
theorem Reread.pool_one {item : Node α} (reread : shop.Reread item) (slot : α) :
    shop.Reread (Node.pool slot [item]) := by
  have written : (Node.pool slot [item]).written = item.written :=
    (written_flatten (Node.pool slot [item])).symm
  have leaves : (Node.pool slot [item]).leaves = item.leaves := by simp
  cases reread with
  | part yields keeps =>
      exact .part (by rwa [written]) ⟨by rw [leaves]; exact keeps.leaves, keeps.writable⟩
  | sum plus tells =>
      have text : (Node.pool slot [item]).spelling = item.spelling := congrArg Written.text written
      exact .sum (by rwa [text]) (by rwa [text, leaves])

/-- The count of each bundle stands in the text of the pool. -/
theorem counted_of_mem_bundles {items : List (Node α)} {bundles : List (Bundle Card)} {slot : α}
    (writable : (Node.pool slot items).isWritable = true)
    (shares : Share.ofItems (items.map key) = bundles.map (Bundle.share Card.key))
    {bundle : Bundle Card} (mem : bundle ∈ bundles) : Numeral.isWritable bundle.count = true := by
  rw [isWritable_pool, counts, map_writtenEach, shares, Bool.and_eq_true, List.map_map,
    List.all_eq_true, List.forall_mem_map] at writable
  exact writable.1 bundle mem

/-- Several items that have one card are dice, and a part. -/
theorem reread_pool_of_one_bundle {items : List (Node α)} {bundle : Bundle Card}
    (several : 2 ≤ items.length) (checked : ∀ item ∈ items, item.Checked) {slot : α}
    (writable : (Node.pool slot items).isWritable = true)
    (shares : Share.ofItems (items.map key) = [bundle.share Card.key])
    (perm : (items.map card).Perm bundle.items) : shop.Reread (Node.pool slot items) := by
  have bundled : Share.ofItems (items.map key) = [bundle].map (Bundle.share Card.key) := shares
  have counted := counted_of_mem_bundles writable bundled List.mem_cons_self
  obtain ⟨shown, count⟩ := bundle
  have same : items.map card = List.replicate count shown := List.perm_replicate.mp perm
  have length : items.length = count := by simpa using congrArg List.length same
  obtain ⟨item, rest, rfl⟩ := List.exists_cons_of_length_pos (Nat.zero_lt_of_lt several)
  have tidy := Share.tidy_ofItems ((item :: rest).map key)
  rw [shares] at tidy
  have own : card item = shown :=
    List.eq_of_mem_replicate (same ▸ List.mem_map_of_mem List.mem_cons_self)
  have isDie : item.isDie = true := by
    by_contra notDie
    have one : count = 1 := tidy.alone _ List.mem_cons_self (by
      rw [Bundle.share, ← own]
      simpa [card, key] using notDie)
    omega
  cases item with
  | die itemSlot d =>
      have positive : 1 ≤ count := by omega
      have itemsFit := writable
      rw [isWritable_pool, Bool.and_eq_true, List.all_eq_true (p := isWritable)] at itemsFit
      have fits := isWritable_die.mp (itemsFit.2 _ List.mem_cons_self)
      have written : (Node.pool slot (die itemSlot d :: rest)).written =
          ⟨Share.spelling ⟨d.spelling, true, count⟩, false, 0⟩ := by
        have text := spelling_pool shares (by simp) slot
        rw [Node.spelling, Node.written, pool_writtenEach (by omega)] at text
        rw [Node.written, pool_writtenEach (by omega), Written.mk.injEq]
        exact ⟨text.trans (by rw [← own]; rfl), rfl, rfl⟩
      have accounts : ((Node.pool slot (die itemSlot d :: rest)).leaves.map account).Perm
          (List.replicate count (account (die () d))) := by
        rw [leaves_pool, ← flatMap_accounts_card, same, ← own]
        simp [card, leaves, account_die itemSlot, List.flatMap_replicate]
      exact reread_dice (checked _ List.mem_cons_self) fits positive counted written accounts
  | _ => contradiction

/-- The cards of the items in bundles, which are written as the shares of the pool. -/
theorem exists_bundles {items : List (Node α)} (checked : ∀ item ∈ items, item.Checked) :
    ∃ bundles : List (Bundle Card),
      Share.ofItems (items.map key) = bundles.map (Bundle.share Card.key) ∧
      (items.map card).Perm (Bundle.expand bundles) := by
  have known : ∀ one ∈ items.map card, ∀ two ∈ items.map card, one.key.1 = true →
      one.key = two.key → one = two := by
    intro one oneMem two twoMem isDie same
    obtain ⟨item, itemMem, rfl⟩ := List.mem_map.mp oneMem
    obtain ⟨other, otherMem, rfl⟩ := List.mem_map.mp twoMem
    exact card_eq_of_key_eq (checked item itemMem) (checked other otherMem) isDie same
  obtain ⟨bundles, shares, perm⟩ := Bundle.exists_of_items (items.map card) known
  exact ⟨bundles, map_key_card items ▸ shares, perm⟩

/-- Each bundle is read with the leaves of its items. -/
theorem tells_of_mem_bundles {items : List (Node α)} {bundles : List (Bundle Card)} {slot : α}
    (each : ∀ item ∈ items, shop.Reread item ∧ item.Checked)
    (writable : (Node.pool slot items).isWritable = true)
    (shares : Share.ofItems (items.map key) = bundles.map (Bundle.share Card.key))
    (perm : (items.map card).Perm (Bundle.expand bundles)) {bundle : Bundle Card}
    (mem : bundle ∈ bundles) :
    shop.Tells (bundle.share Card.key).spelling (bundle.items.flatMap Card.accounts) := by
  have tidy := Share.tidy_ofItems (items.map key)
  rw [shares] at tidy
  have counted := counted_of_mem_bundles writable shares mem
  rw [isWritable_pool, Bool.and_eq_true, List.all_eq_true (p := isWritable)] at writable
  obtain ⟨item, itemMem, own⟩ :=
    List.mem_map.mp (perm.mem_iff.mpr (Bundle.item_mem_expand tidy mem))
  obtain ⟨shown, count⟩ := bundle
  obtain rfl : card item = shown := own
  obtain ⟨reread, checked⟩ := each item itemMem
  exact tells_bundle reread checked (writable.2 item itemMem)
    (tidy.counted _ (List.mem_map_of_mem mem)) counted (tidy.alone _ (List.mem_map_of_mem mem))

/-- A pool is read with the leaves of its items, one bundle after the other. -/
theorem Reread.pool {items : List (Node α)} (nonempty : items ≠ [])
    (each : ∀ item ∈ items, shop.Reread item ∧ item.Checked) {slot : α}
    (writable : (Node.pool slot items).isWritable = true) : shop.Reread (Node.pool slot items) := by
  by_cases single : items.length = 1
  · obtain ⟨item, rfl⟩ := List.length_eq_one_iff.mp single
    exact (each item List.mem_cons_self).1.pool_one slot
  have several : 2 ≤ items.length := by
    have positive := List.length_pos_of_ne_nil nonempty
    omega
  have checked : ∀ item ∈ items, item.Checked := fun item mem => (each item mem).2
  obtain ⟨bundles, shares, perm⟩ := exists_bundles checked
  match bundles, shares, perm with
  | [], _, perm => exact absurd (List.map_eq_nil_iff.mp perm.eq_nil) nonempty
  | [bundle], shares, perm =>
      have alone : (items.map card).Perm bundle.items := by simpa using perm
      exact reread_pool_of_one_bundle several checked writable shares alone
  | one :: two :: rest, shares, perm =>
      have text := spelling_pool shares (by simp) slot
      have tells := tells_join (by simp) fun _ => tells_of_mem_bundles each writable shares perm
      have accounts : ((Node.pool slot items).leaves.map account).Perm
          ((one :: two :: rest).flatMap fun bundle => bundle.items.flatMap Card.accounts) := by
        rw [leaves_pool, ← flatMap_accounts_card, ← List.flatMap_assoc]
        exact perm.flatMap_right Card.accounts
      rw [List.map_map] at text
      refine .sum ?_ ?_
      · rw [text]
        simp [Text.join]
      · rw [text]
        exact tells.of_perm accounts

/-! ### Selections -/

/-- A pool that ends in one die is written like the die, and a die is read as a pool of one. -/
theorem yields_of_leaves_die {node : Node α} {slot : α} {d : Die}
    (checked : ∀ sub ∈ node.subtrees, sub.Checked) (writable : node.isWritable = true)
    (single : node.leaves = [die slot d]) :
    shop.Yields (enclosed node.written.wrapsForAlgorithm node.written)
      (Node.pool () [die () d]) := by
  have mem : die slot d ∈ node.subtrees := leaves_subset node (by simp [single])
  have dieChecked : d.Checked := checked _ mem
  have fits := isWritable_die.mp (isWritable_of_mem_subtrees writable _ mem)
  have written : node.written = ⟨Share.spelling ⟨d.spelling, true, 1⟩, false, 0⟩ := by
    rw [written_of_leaves_singleton checked single, Node.written]
    rfl
  rw [written, enclosed_dice]
  exact yields_dice dieChecked fits (le_refl 1) (by decide)

/-- Where each item has one leaf, the leaves of the pool cover its items. -/
theorem covers_leaves {items : List (Node α)} (single : ∀ item ∈ items, item.leaves.length = 1) :
    Account.CoversEach (items.map account) ((items.flatMap leaves).map account) := by
  refine .of_forall₂ ?_
  induction items with
  | nil => exact .nil
  | cons item rest ih =>
      rw [List.forall_mem_cons] at single
      obtain ⟨leaf, leaves⟩ := List.length_eq_one_iff.mp single.1
      rw [List.flatMap_cons, leaves, List.singleton_append]
      exact .cons (account_covers_of_leaves_singleton leaves) (ih single.2)

/-- Items with one leaf each are read as the items of a pool, if one that is alone is a die. -/
theorem Reread.exists_items {slot : α} {items : List (Node α)}
    (reread : shop.Reread (Node.pool slot items))
    (checked : ∀ sub ∈ (Node.pool slot items).subtrees, sub.Checked)
    (writable : (Node.pool slot items).isWritable = true)
    (few : Numeral.isWritable (Node.pool slot items).leaves.length = true)
    (single : ∀ item ∈ items, item.leaves.length = 1)
    (alone : ∀ item, items = [item] → ∀ leaf ∈ item.leaves, leaf.isDie = true) :
    ∃ items', Account.CoversEach (items.map account) (items'.map account) ∧
      (Node.pool () items').isWritable = true ∧
      shop.Yields (enclosed (Node.pool slot items).written.wrapsForAlgorithm
        (Node.pool slot items).written) (Node.pool () items') := by
  by_cases one : items.length = 1
  · obtain ⟨item, rfl⟩ := List.length_eq_one_iff.mp one
    obtain ⟨leaf, leaves⟩ := List.length_eq_one_iff.mp (single item List.mem_cons_self)
    have isDie := alone item rfl leaf (by simp [leaves])
    cases leaf with
    | die leafSlot d =>
        have leavesToo : (Node.pool slot [item]).leaves = [die leafSlot d] := by simp [leaves]
        have mem : die leafSlot d ∈ (Node.pool slot [item]).subtrees :=
          leaves_subset _ (by simp [leavesToo])
        have fits := isWritable_of_mem_subtrees writable _ mem
        refine ⟨[die () d], ?_, ?_, yields_of_leaves_die checked writable leavesToo⟩
        · have covers := account_covers_of_leaves_singleton leaves
          rw [account_die] at covers
          exact .of_forall₂ (.cons covers .nil)
        · have few : Numeral.isWritable ([die () d] : List (Node Unit)).length = true := by
            rw [List.length_singleton]
            decide
          exact isWritable_pool_of few (by simpa [isWritable_die] using fits)
    | _ => contradiction
  · obtain ⟨again, yields, keeps⟩ :=
      reread.exists_enclosed _ plus_notMem_of_not_wrapsForAlgorithm
    have covers : Account.CoversEach (items.map account) (again.poured.map account) := by
      have leaves := keeps.leaves
      rw [leaves_pool, yields.assembled.leaves_eq_poured] at leaves
      exact (covers_leaves single).trans leaves
    -- What pours more than one node, or none, is a pool.
    cases sort : again.isPool with
    | true =>
        have fits := keeps.isWritable yields.assembled few
        obtain ⟨items', rfl⟩ := exists_of_isPool sort
        exact ⟨items', covers, fits, yields⟩
    | false =>
        rw [poured_of_not_isPool sort] at covers
        exact absurd (by simpa using (ranges_of_covers covers).length_eq) one

theorem Reread.selection {poolSlot : α} {items : List (Node α)}
    (reread : shop.Reread (Node.pool poolSlot items)) (slot : α) {s : Selection} {threshold : Nat}
    (checked : ∀ sub ∈ (Node.selection slot s threshold poolSlot items).subtrees, sub.Checked)
    (writable : (Node.selection slot s threshold poolSlot items).isWritable = true)
    (few : Numeral.isWritable (Node.pool poolSlot items).leaves.length = true)
    (apart : (Node.selection slot s threshold poolSlot items).KeepsApart) :
    shop.Reread (Node.selection slot s threshold poolSlot items) := by
  obtain ⟨positive, fits⟩ := checked _ (self_mem_subtrees _)
  have inner : ∀ sub ∈ (Node.pool poolSlot items).subtrees, sub.Checked := by
    intro sub mem
    exact checked sub (List.mem_cons_of_mem _ (by rwa [inside_selection]))
  rw [isWritable_selection, Bool.and_eq_true] at writable
  obtain ⟨items', covers, writableToo, yields⟩ :=
    reread.exists_items inner writable.2 few apart.1 apart.2
  have length : items'.length = items.length := by
    simpa using (ranges_of_covers covers).length_eq.symm
  have selected := yields.selected (s := s) writable.1 positive (by rwa [length])
  have pooled : (Node.pool poolSlot items).written = Written.pool (writtenEach items) := by
    rw [Node.written]
  refine .part (by rwa [Node.written, ← pooled])
    (keeps_of_not_isPool rfl rfl (account_covers ?_ ?_) ?_)
  · exact extreme_selection_congr (extremes_of_covers covers) slot () s threshold poolSlot ()
  · exact fun _ => isReported_selection_of (extremes_of_covers covers) (reports_of_covers covers)
      slot () s threshold poolSlot ()
  · rw [isWritable_selection, writable.1, writableToo]
    rfl

/-! ### Whole trees -/

/-- Every node is read back that can be written and expressed and in which all selections keep
their items apart. -/
theorem reread {node : Node α} (nonempty : node.isEmptyPool = false)
    (checked : ∀ sub ∈ node.subtrees, sub.Checked)
    (writable : ∀ sub ∈ node.subtrees, sub.isWritable = true)
    (expressible : ∀ sub ∈ node.subtrees, sub.Expressible)
    (possible : ∀ sub ∈ node.subtrees, sub.isExplosion = true → 0 ≤ shop.limit)
    (apart : ∀ sub ∈ node.subtrees, sub.KeepsApart) : shop.Reread node := by
  -- The pool of a selection is no node of its own, so the induction is on what is inside.
  induction node using induction_inside with
  | step node ih =>
      have inner : ∀ sub ∈ node.inside, sub.isEmptyPool = false →
          shop.Reread sub ∧ Numeral.isWritable sub.leaves.length = true := by
        intro sub mem nonempty
        have below : sub.subtrees ⊆ node.subtrees := subtrees_subset (List.mem_cons_of_mem _ mem)
        refine ⟨ih sub mem nonempty (fun deeper mem => checked deeper (below mem))
          (fun deeper mem => writable deeper (below mem))
          (fun deeper mem => expressible deeper (below mem))
          (fun deeper mem => possible deeper (below mem))
          (fun deeper mem => apart deeper (below mem)), ?_⟩
        exact (expressible sub (below (self_mem_subtrees sub))).few_leaves
      have self := self_mem_subtrees node
      have fits := writable node self
      cases node with
      | die slot d => exact reread_die (checked _ self) (isWritable_die.mp fits) slot
      | pool slot items =>
          refine .pool (by rintro rfl; contradiction) (fun item mem => ?_) fits
          have itemMem := item_mem_inside_pool slot mem
          exact ⟨(inner item itemMem (checked _ self item mem)).1,
            checked item (List.mem_cons_of_mem _ itemMem)⟩
      | arithmetic slot operation value deeper =>
          obtain ⟨readInner, few⟩ := inner deeper (by simp) (expressible _ self)
          rw [isWritable_arithmetic, Bool.and_eq_true] at fits
          exact readInner.arithmetic few slot operation (checked _ self) fits.1
      | selection slot s threshold poolSlot items =>
          obtain ⟨positive, enough⟩ := checked _ self
          obtain ⟨item, rest, rfl⟩ :=
            List.exists_cons_of_ne_nil (s.ne_nil_of_fits positive enough)
          obtain ⟨readInner, few⟩ := inner (.pool poolSlot (item :: rest)) (by simp) rfl
          exact readInner.selection slot checked fits few (apart _ self)
      | explosion slot rule deeper =>
          have explodes := checked _ self
          obtain ⟨range, mem, -⟩ := explodes.suits.canExplode
          obtain ⟨leaf, leafMem, -⟩ := List.mem_map.mp mem
          obtain ⟨readInner, few⟩ := inner deeper (by simp) (not_isEmptyPool_of_mem_leaves leafMem)
          rw [isWritable_explosion, Bool.and_eq_true] at fits
          exact readInner.explosion few slot (expressible _ self) fits.1 (possible _ self rfl)
            explodes

/-- The text of a node that is read back is built into a node that reports the bounds that the node
reports. -/
theorem Reread.exists_build {node : Node α} (reread : shop.Reread node)
    (checked : ∀ sub ∈ node.subtrees, sub.Checked)
    (few : Numeral.isWritable node.leaves.length = true) :
    ∃ again, (shop.build node.spelling).result = .ok again ∧
      ∀ side bound, node.reported side = .ok bound → again.reported side = .ok bound := by
  obtain ⟨again, means, covers, writable⟩ := reread.tells
  have keeps : node.Keeps again := ⟨covers, writable⟩
  have assembled := means.assembled.1
  refine ⟨again, means.build node.trim_spelling (keeps.isWritable assembled few),
    fun side bound answered => ?_⟩
  obtain ⟨reported, rfl⟩ := (reported_eq_ok checked side).mp answered
  exact (reported_eq_ok assembled.checked side).mpr
    ⟨keeps.reports assembled side reported, (keeps.extreme side).symm⟩

end Workshop

namespace Session

open Node

/-- Whatever was asked of a session: the text of each of its nodes, if it has one, is built into a
node with the same bounds, if the node is no empty pool, can be expressed, and keeps apart what
its selections select from.  If there are explosions in it, the workshop must allow for some. -/
theorem spellings_keep_bounds (draws : Draws) (requests : List Request) (shop : Workshop)
    {name : String} {node : Node Nat} {s : Text}
    (found : (empty.after draws requests).find name = .ok node)
    (spelled : node.spelling? = some s) (nonempty : node.isEmptyPool = false)
    (expressible : ∀ sub ∈ node.subtrees, sub.Expressible)
    (possible : ∀ sub ∈ node.subtrees, sub.isExplosion = true → 0 ≤ shop.limit)
    (apart : ∀ sub ∈ node.subtrees, sub.KeepsApart) :
    ∃ again, (shop.build s).result = .ok again ∧
      ∀ side bound, node.reported side = .ok bound → again.reported side = .ok bound := by
  have sound : (empty.after draws requests).Sound := sound_empty.after draws requests
  have checked : ∀ sub ∈ node.subtrees, sub.Checked := fun sub mem =>
    sound.checked sub (subtrees_subset_of_find found mem)
  obtain ⟨writable, rfl⟩ : node.isWritable = true ∧ node.spelling = s := by
    rw [spelling?] at spelled
    split at spelled
    · next writable => exact ⟨writable, Option.some.inj spelled⟩
    · contradiction
  have reread := Workshop.reread nonempty checked (isWritable_of_mem_subtrees writable)
    expressible possible apart
  exact reread.exists_build checked (expressible node (self_mem_subtrees node)).few_leaves

/-- In `(D6+D6+3)KH1` the first die stands in a pool of its own. -/
theorem nested_die_keeps_bounds :
    let draws : Draws := .cycle #[0]
    let session := empty.after draws
      [.make "die" true (.sided 6), .make "one" true (.pool ["die"]),
        .make "sum" true (.arithmetic "die" ['+'] 3), .make "pool" true (.pool ["one", "sum"]),
        .make "kept" true (.selection "pool" ['k', 'h'] 1)]
    let shop : Workshop := ⟨some ['6'], 100, false⟩
    let node : Node Nat := .selection 4 .keepHighest 1 3
      [.pool 1 [.die 0 (.sided 6)], .arithmetic 2 .add 3 (.die 0 (.sided 6))]
    let s := ['(', 'D', '6', '+', 'D', '6', '+', '3', ')', 'K', 'H', '1']
    session.find "kept" = .ok node ∧ node.spelling? = some s ∧ node.isEmptyPool = false ∧
      (∀ sub ∈ node.subtrees, sub.Expressible) ∧
      (∀ sub ∈ node.subtrees, sub.isExplosion = true → 0 ≤ shop.limit) ∧
      (∀ sub ∈ node.subtrees, sub.KeepsApart) ∧
      ∃ again, (shop.build s).result = .ok again ∧
        ∀ side bound, node.reported side = .ok bound → again.reported side = .ok bound := by
  intro draws session shop node s
  have found : session.find "kept" = .ok node := by with_unfolding_all rfl
  have spelled : node.spelling? = some s := by decide +kernel
  have expressible : ∀ sub ∈ node.subtrees, sub.Expressible := by
    simp [node, subtrees, Expressible, isEmptyPool, leavesEach, leaves]
    decide
  have possible : ∀ sub ∈ node.subtrees, sub.isExplosion = true → 0 ≤ shop.limit := by
    simp [shop]
  have apart : ∀ sub ∈ node.subtrees, sub.KeepsApart := by
    simp [node, subtrees, KeepsApart, leaves, leavesEach]
  exact ⟨found, spelled, rfl, expressible, possible, apart,
    spellings_keep_bounds draws _ shop found spelled rfl expressible possible apart⟩

/-- Without the last condition it does not hold.  A pool of two dice that stands beside a third
die is written `2D6+D6`, and of what is read back one die is kept, where the two dice were one
item.  A pool that holds only a sum is written like the sum, and from that nothing is selected. -/
theorem nested_pools_lose_bounds :
    let draws : Draws := .cycle #[0]
    let shop : Workshop := ⟨some ['6'], 100, false⟩
    let paired := empty.after draws
      [.make "die" true (.sided 6), .make "pair" true (.pool ["die", "die"]),
        .make "pool" true (.pool ["pair", "die"]),
        .make "kept" true (.selection "pool" ['k', 'h'] 1)]
    let summed := empty.after draws
      [.make "die" true (.sided 6), .make "sum" true (.arithmetic "die" ['+'] 3),
        .make "pool" true (.pool ["sum"]), .make "kept" true (.selection "pool" ['k', 'h'] 1)]
    (∃ node again s, paired.find "kept" = .ok node ∧ node.isEmptyPool = false ∧
      (∀ sub ∈ node.subtrees, sub.Expressible) ∧
      node.spelling? = some s ∧ (shop.build s).result = .ok again ∧
      node.reported .highest = .ok 12 ∧ again.reported .highest = .ok 6) ∧
    ∃ node s, summed.find "kept" = .ok node ∧ node.isEmptyPool = false ∧
      (∀ sub ∈ node.subtrees, sub.Expressible) ∧ node.spelling? = some s ∧
      (shop.build s).result = .error (.notAPool ['D', '6', '+', '3']) := by
  intro draws shop paired summed
  let pair : Node Nat := .selection 3 .keepHighest 1 2
    [.pool 1 [.die 0 (.sided 6), .die 0 (.sided 6)], .die 0 (.sided 6)]
  let again : Node Unit :=
    .selection () .keepHighest 1 () [.die () (.sided 6), .die () (.sided 6), .die () (.sided 6)]
  let sum : Node Nat := .selection 3 .keepHighest 1 2 [.arithmetic 1 .add 3 (.die 0 (.sided 6))]
  have foundPair : paired.find "kept" = .ok pair := by with_unfolding_all rfl
  have foundSum : summed.find "kept" = .ok sum := by with_unfolding_all rfl
  have expressiblePair : ∀ sub ∈ pair.subtrees, sub.Expressible := by
    simp [pair, subtrees, Expressible, leavesEach, leaves]
    decide
  have expressibleSum : ∀ sub ∈ sum.subtrees, sub.Expressible := by
    simp [sum, subtrees, Expressible, isEmptyPool, leavesEach, leaves]
    decide
  have built : (shop.build ['(', '2', 'D', '6', '+', 'D', '6', ')', 'K', 'H', '1']).result
      = .ok again := shop.build_eq_ok.mpr ⟨_, rfl, rfl, by decide⟩
  have refused : (shop.build ['(', 'D', '6', '+', '3', ')', 'K', 'H', '1']).result
      = .error (.notAPool ['D', '6', '+', '3']) := rfl
  have checkedPair : ∀ sub ∈ pair.subtrees, sub.Checked := fun sub mem =>
    (sound_empty.after draws _).checked sub (subtrees_subset_of_find foundPair mem)
  have reportedPair : pair.reported .highest = .ok 12 := by
    refine (reported_eq_ok checkedPair _).mpr ⟨?_, ?_⟩
    · simp [pair, isReported_selection, isReported_pool, isReported_die, extreme_pool,
        Selection.select, List.mergeSort, Die.extreme, Die.highest]
      decide
    · simp [pair, extreme_selection, extreme_pool, Selection.select, List.mergeSort,
        Die.extreme, Die.highest]
  have reportedAgain : again.reported .highest = .ok 6 := by
    refine (reported_eq_ok (shop.checked_of_build built) _).mpr ⟨?_, ?_⟩
    · simp [again, isReported_selection, isReported_die, Selection.select, List.mergeSort,
        Die.extreme, Die.highest]
      decide
    · simp [again, extreme_selection, Selection.select, List.mergeSort, Die.extreme, Die.highest]
  exact ⟨⟨pair, again, _, foundPair, rfl, expressiblePair, by decide +kernel, built, reportedPair,
    reportedAgain⟩, sum, _, foundSum, rfl, expressibleSum, by decide +kernel, refused⟩

end Session

end DicePool
