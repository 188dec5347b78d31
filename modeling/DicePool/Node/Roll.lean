/-
Module: DicePool.Node.Roll
Purpose: Rolling a node on a stream of draws.
Main exports: Node.askRollers, Node.askRoll
-/
import DicePool.Node.Evaluation

/-!
An explosion rolls the leaves of its inner node one by one and not the node itself,
so the recursion keeps for every node its own evaluation and the evaluations of its
leaves.
-/

namespace DicePool.Node

open Evaluation

variable {σ α : Type}

/-- An evaluation with itself as its only leaf. -/
def sole (evaluation : Evaluation σ Int) : Evaluation σ Int × List (Evaluation σ Int) :=
  (evaluation, [evaluation])

mutual

/-- Rolls the node, and rolls its leaves. -/
def askRollers (hear : Listener σ α) (draws : Draws) :
    Node α → Evaluation σ Int × List (Evaluation σ Int)
  | die slot d => sole do
      let number ← draw draws
      let value ← answer (d.shown number)
      tell hear (die slot d) .roll (.sum [value]) value
  | pool slot items =>
      let parts := askRollersEach hear draws items
      (do
        let values ← each (parts.map (·.1))
        tell hear (pool slot items) .roll (.sum values) (total values),
       parts.flatMap (·.2))
  | arithmetic slot operation value inner =>
      let evaluation := (askRollers hear draws inner).1
      sole do
        let base ← evaluation
        let result ← answer (operation.calculate base value)
        tell hear (arithmetic slot operation value inner) .roll
          (.calculation base operation value) result
  | selection slot s threshold poolSlot items =>
      let parts := askRollersEach hear draws items
      sole do
        let values ← each (parts.map (·.1))
        let kept := s.select threshold values
        tell hear (selection slot s threshold poolSlot items) .roll (.sum kept) (total kept)
  | explosion slot rule inner =>
      let leaves := (askRollers hear draws inner).2
      sole do
        let values ← exploded rule leaves
        tell hear (explosion slot rule inner) .roll (.sum values) (total values)

/-- Rolls several nodes and their leaves. -/
def askRollersEach (hear : Listener σ α) (draws : Draws) :
    List (Node α) → List (Evaluation σ Int × List (Evaluation σ Int))
  | [] => []
  | node :: rest => askRollers hear draws node :: askRollersEach hear draws rest

end

/-- Rolls the node. -/
def askRoll (hear : Listener σ α) (draws : Draws) (node : Node α) : Evaluation σ Int :=
  (node.askRollers hear draws).1

theorem askRollersEach_eq_map (hear : Listener σ α) (draws : Draws) (items : List (Node α)) :
    askRollersEach hear draws items = items.map (askRollers hear draws) := by
  induction items with
  | nil => simp [askRollersEach]
  | cons node rest ih => simp [askRollersEach, ih]

mutual

/-- The second part of `askRollers` holds the evaluations of the leaves. -/
theorem askRollers_leaves (hear : Listener σ α) (draws : Draws) :
    (node : Node α) → (node.askRollers hear draws).2 = node.leaves.map (askRoll hear draws)
  | die _ _ => by simp [askRollers, leaves, sole, askRoll]
  | pool _ items => by
      simpa [askRollers, leaves] using askRollersEach_leaves hear draws items
  | arithmetic _ _ _ _ => by simp [askRollers, leaves, sole, askRoll]
  | selection _ _ _ _ _ => by simp [askRollers, leaves, sole, askRoll]
  | explosion _ _ _ => by simp [askRollers, leaves, sole, askRoll]

/-- The leaves of several nodes have the evaluations of the leaves of each. -/
theorem askRollersEach_leaves (hear : Listener σ α) (draws : Draws) :
    (items : List (Node α)) →
      (askRollersEach hear draws items).flatMap (·.2)
        = (leavesEach items).map (askRoll hear draws)
  | [] => by simp [askRollersEach, leavesEach]
  | node :: rest => by
      simp [askRollersEach, leavesEach, askRollers_leaves hear draws node,
        askRollersEach_leaves hear draws rest]

end

/-- A die shows the face of the next draw. -/
theorem askRoll_die (hear : Listener σ α) (draws : Draws) (slot : α) (d : Die) :
    (die slot d).askRoll hear draws = (do
      let number ← draw draws
      let value ← answer (d.shown number)
      tell hear (die slot d) .roll (.sum [value]) value) := by
  simp [askRoll, askRollers, sole]

/-- A pool adds up the rolls of its items. -/
theorem askRoll_pool (hear : Listener σ α) (draws : Draws) (slot : α) (items : List (Node α)) :
    (pool slot items).askRoll hear draws = (do
      let values ← each (items.map (askRoll hear draws))
      tell hear (pool slot items) .roll (.sum values) (total values)) := by
  simp only [askRoll, askRollers, askRollersEach_eq_map, List.map_map]
  rfl

/-- Arithmetic calculates with the roll of its inner node. -/
theorem askRoll_arithmetic (hear : Listener σ α) (draws : Draws) (slot : α)
    (operation : Operation) (value : Nat) (inner : Node α) :
    (arithmetic slot operation value inner).askRoll hear draws = (do
      let base ← inner.askRoll hear draws
      let result ← answer (operation.calculate base value)
      tell hear (arithmetic slot operation value inner) .roll
        (.calculation base operation value) result) := by
  simp [askRoll, askRollers, sole]

/-- A selection rolls all items of its pool and adds up what it selects. -/
theorem askRoll_selection (hear : Listener σ α) (draws : Draws) (slot : α) (s : Selection)
    (threshold : Nat) (poolSlot : α) (items : List (Node α)) :
    (selection slot s threshold poolSlot items).askRoll hear draws = (do
      let values ← each (items.map (askRoll hear draws))
      let kept := s.select threshold values
      tell hear (selection slot s threshold poolSlot items) .roll (.sum kept) (total kept)) := by
  simp only [askRoll, askRollers, askRollersEach_eq_map, List.map_map, sole]
  rfl

/-- An explosion rolls the leaves of its inner node, each with its repetitions, and
adds up everything. -/
theorem askRoll_explosion (hear : Listener σ α) (draws : Draws) (slot : α) (rule : Explosion)
    (inner : Node α) :
    (explosion slot rule inner).askRoll hear draws = (do
      let values ← exploded rule (inner.leaves.map (askRoll hear draws))
      tell hear (explosion slot rule inner) .roll (.sum values) (total values)) := by
  simp only [askRoll, askRollers, sole, askRollers_leaves]

end DicePool.Node
