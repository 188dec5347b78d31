/-
Module: DicePool.Node
Purpose: The trees that are rolled.
Main exports: Node, Node.slot, Node.title, Node.leaves, Node.isEmptyPool
-/
import DicePool.Die
import DicePool.Modify

/-!
A node is a die, a pool of nodes, or something done to a node: arithmetic on its
sum, a selection among the results of a pool, an explosion of its dice.

Every node has a slot of a type of its own, a place that a holder of many nodes
can refer to.  Nothing about the node hangs on it: it tells apart nodes that are
otherwise equal, and so says whose evaluation is being followed.
-/

namespace DicePool

/-- A tree of dice, with slots of type `α`. -/
inductive Node (α : Type) where
  | die (slot : α) (die : Die)
  /-- The sum of the items. -/
  | pool (slot : α) (items : List (Node α))
  | arithmetic (slot : α) (operation : Operation) (value : Nat) (inner : Node α)
  /-- A selection among the items of a pool, which has a slot of its own. -/
  | selection (slot : α) (selection : Selection) (threshold : Nat)
      (poolSlot : α) (items : List (Node α))
  | explosion (slot : α) (rule : Explosion) (inner : Node α)
deriving Repr

namespace Node

variable {α : Type}

/-- The slot of the node itself. -/
def slot : Node α → α
  | die slot _ => slot
  | pool slot _ => slot
  | arithmetic slot _ _ _ => slot
  | selection slot _ _ _ _ => slot
  | explosion slot _ _ => slot

/-- The same node in another slot. What it is made of stays in place. -/
def inSlot (slot : α) : Node α → Node α
  | die _ d => die slot d
  | pool _ items => pool slot items
  | arithmetic _ operation value inner => arithmetic slot operation value inner
  | selection _ s threshold poolSlot items => selection slot s threshold poolSlot items
  | explosion _ rule inner => explosion slot rule inner

/-- The name under which a node of this sort is reported. -/
def title : Node α → String
  | die _ (.sided _) => "SidedDie"
  | die _ .percentile => "PercentileDie"
  | die _ .fudge => "FudgeDie"
  | die _ (.custom _) => "CustomDie"
  | pool _ _ => "Cup"
  | arithmetic _ _ _ _ => "Arithmetic"
  | selection _ _ _ _ _ => "DropKeep"
  | explosion _ _ _ => "Explode"

/-- Whether the node is a single die. -/
def isDie : Node α → Bool
  | die _ _ => true
  | _ => false

/-- Whether the node is a pool without items. Such a pool is never an item. -/
def isEmptyPool : Node α → Bool
  | pool _ [] => true
  | _ => false

/-- The node that a modifier is applied to. -/
def inner? : Node α → Option (Node α)
  | arithmetic _ _ _ inner => some inner
  | selection _ _ _ poolSlot items => some (pool poolSlot items)
  | explosion _ _ inner => some inner
  | _ => none

/-- What a pool contributes when it is poured into another: its items. Any other
node contributes itself. -/
def poured : Node α → List (Node α)
  | pool _ items => items
  | node => [node]

/-- A pool of one is as good as its item. -/
def flatten : Node α → Node α
  | pool _ [item] => item
  | node => node

mutual

/-- The nodes that are left when pools are opened, at any depth. -/
def leaves : Node α → List (Node α)
  | pool _ items => leavesEach items
  | node => [node]

/-- The leaves of several nodes, one after the other. -/
def leavesEach : List (Node α) → List (Node α)
  | [] => []
  | node :: rest => leaves node ++ leavesEach rest

end

theorem leavesEach_eq_flatMap (items : List (Node α)) :
    leavesEach items = items.flatMap leaves := by
  induction items with
  | nil => rfl
  | cons node rest ih => rw [leavesEach, ih, List.flatMap_cons]

mutual

/-- The tree with its slots numbered from `start` on, every slot its own number,
and the first number that is not in use. -/
def numbered (start : Nat) : Node α → Node Nat × Nat
  | die _ d => (die start d, start + 1)
  | pool _ items =>
      let (items, next) := numberedEach (start + 1) items
      (pool start items, next)
  | arithmetic _ operation value inner =>
      let (inner, next) := numbered (start + 1) inner
      (arithmetic start operation value inner, next)
  | selection _ s threshold _ items =>
      let (items, next) := numberedEach (start + 2) items
      (selection start s threshold (start + 1) items, next)
  | explosion _ rule inner =>
      let (inner, next) := numbered (start + 1) inner
      (explosion start rule inner, next)

/-- The trees with their slots numbered one after the other. -/
def numberedEach (start : Nat) : List (Node α) → List (Node Nat) × Nat
  | [] => ([], start)
  | node :: rest =>
      let (node, next) := numbered start node
      let (rest, next) := numberedEach next rest
      (node :: rest, next)

end

end Node

end DicePool
