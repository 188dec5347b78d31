/-
Module: DicePool.Proofs.Slots
Purpose: Trees whose nodes stand in other slots.
Main exports: Node.map, Node.subtrees_map, Node.leaves_map, Node.written_map, Node.isWritable_map,
  stepIn, report_stepIn
-/
import Mathlib.Data.List.Basic
import DicePool.Proofs.Tree
import DicePool.Trace

/-!
`Node.map` puts every node of a tree into another slot.  What the tree is made of and how it is
written do not depend on the slots, and neither does what is reported of a step (`report_stepIn`).
-/

namespace DicePool

namespace Node

variable {α β : Type}

mutual

/-- The tree with every slot replaced. -/
def map (f : α → β) : Node α → Node β
  | die slot d => die (f slot) d
  | pool slot items => pool (f slot) (mapEach f items)
  | arithmetic slot operation value inner => arithmetic (f slot) operation value (map f inner)
  | selection slot s threshold poolSlot items =>
      selection (f slot) s threshold (f poolSlot) (mapEach f items)
  | explosion slot rule inner => explosion (f slot) rule (map f inner)

/-- Several trees with every slot replaced. -/
def mapEach (f : α → β) : List (Node α) → List (Node β)
  | [] => []
  | node :: rest => map f node :: mapEach f rest

end

section

variable (f : α → β)

@[simp] theorem mapEach_eq_map (items : List (Node α)) : mapEach f items = items.map (map f) := by
  induction items with
  | nil => rfl
  | cons node rest ih => rw [mapEach, ih, List.map_cons]

@[simp] theorem isEmptyPool_map (node : Node α) : (node.map f).isEmptyPool = node.isEmptyPool := by
  cases node with
  | pool slot items => cases items <;> rfl
  | _ => rfl

theorem subtrees_map (node : Node α) : (node.map f).subtrees = node.subtrees.map (map f) := by
  have ofItems : ∀ items : List (Node α),
      (∀ item ∈ items, (item.map f).subtrees = item.subtrees.map (map f)) →
        (items.map (map f)).flatMap subtrees = (items.flatMap subtrees).map (map f) := by
    intro items each
    rw [List.flatMap_map, List.map_flatMap]
    exact List.flatMap_congr each
  induction node with
  | die slot d => rfl
  | pool slot items ih =>
      simp only [map, mapEach_eq_map, subtrees, inside_pool, List.map_cons, ofItems items ih]
  | arithmetic slot operation value inner ih =>
      simp only [map, subtrees, inside_arithmetic, List.map_cons] at ih ⊢
      rw [ih]
  | selection slot s threshold poolSlot items ih =>
      simp only [map, mapEach_eq_map, subtrees, inside_selection, inside_pool, List.map_cons,
        ofItems items ih]
  | explosion slot rule inner ih =>
      simp only [map, subtrees, inside_explosion, List.map_cons] at ih ⊢
      rw [ih]

theorem leaves_map (node : Node α) : (node.map f).leaves = node.leaves.map (map f) := by
  induction node with
  | pool slot items ih =>
      simp only [map, mapEach_eq_map, leaves_pool, List.flatMap_map, List.map_flatMap]
      exact List.flatMap_congr ih
  | _ => simp [map, leaves]

theorem isDie_map (node : Node α) : (node.map f).isDie = node.isDie := by
  cases node <;> rfl

theorem title_map (node : Node α) : (node.map f).title = node.title := by
  cases node with
  | die slot d => cases d <;> rfl
  | _ => rfl

/-- A node is written alike in any slot. -/
theorem written_map (node : Node α) : (node.map f).written = node.written := by
  have ofItems : ∀ {items : List (Node α)}, (∀ item ∈ items, (item.map f).written = item.written) →
      writtenEach (items.map (map f)) = writtenEach items := by
    intro items each
    rw [writtenEach_eq_map, writtenEach_eq_map, List.map_map]
    exact List.map_congr_left fun item mem => congrArg₂ Prod.mk (isDie_map f item) (each item mem)
  induction node with
  | die slot d => rfl
  | pool slot items ih => rw [map, mapEach_eq_map, written, written, ofItems ih]
  | arithmetic slot operation value inner ih => rw [map, written, written, ih]
  | selection slot s threshold poolSlot items ih =>
      rw [map, mapEach_eq_map, written, written, ofItems ih]
  | explosion slot rule inner ih => rw [map, written, written, ih]

theorem spelling_map (node : Node α) : (node.map f).spelling = node.spelling :=
  congrArg Written.text (written_map f node)

theorem numbers_map (node : Node α) : (node.map f).numbers = node.numbers := by
  have ofItems : ∀ {items : List (Node α)}, (∀ item ∈ items, (item.map f).numbers = item.numbers) →
      numbersEach (items.map (map f)) = numbersEach items := by
    intro items each
    rw [numbersEach_eq_flatMap, numbersEach_eq_flatMap, List.flatMap_map]
    exact List.flatMap_congr each
  have shares : ∀ items : List (Node α), writtenEach (items.map (map f)) = writtenEach items := by
    intro items
    rw [writtenEach_eq_map, writtenEach_eq_map, List.map_map]
    exact List.map_congr_left fun item _ =>
      congrArg₂ Prod.mk (isDie_map f item) (written_map f item)
  induction node with
  | die slot d => rfl
  | pool slot items ih => rw [map, mapEach_eq_map, numbers, numbers, ofItems ih, shares]
  | arithmetic slot operation value inner ih => rw [map, numbers, numbers, ih]
  | selection slot s threshold poolSlot items ih =>
      rw [map, mapEach_eq_map, numbers, numbers, ofItems ih, shares]
  | explosion slot rule inner ih => rw [map, numbers, numbers, ih]

theorem isWritable_map (node : Node α) : (node.map f).isWritable = node.isWritable := by
  rw [isWritable, isWritable, numbers_map]

theorem spelling?_map (node : Node α) : (node.map f).spelling? = node.spelling? := by
  rw [spelling?, spelling?, isWritable_map, spelling_map]

/-- In its own slots a tree is what it is. -/
theorem map_id (node : Node α) : node.map id = node := by
  have ofItems : ∀ {items : List (Node α)}, (∀ item ∈ items, item.map id = item) →
      items.map (map id) = items := by
    intro items each
    rw [List.map_congr_left each, List.map_id']
  induction node with
  | die slot d => rfl
  | pool slot items ih => rw [map, mapEach_eq_map, ofItems ih]; rfl
  | arithmetic slot operation value inner ih => rw [map, ih]; rfl
  | selection slot s threshold poolSlot items ih => rw [map, mapEach_eq_map, ofItems ih]; rfl
  | explosion slot rule inner ih => rw [map, ih]; rfl

/-- The step of the same node in another slot. -/
def stepIn (entry : Entry α) : Entry β :=
  ⟨entry.node.map f, entry.measure, entry.line, entry.result⟩

/-- A report does not show the slots. -/
@[simp] theorem report_stepIn (entry : Entry α) : (stepIn f entry).report = entry.report := by
  simp only [Entry.report, stepIn, title_map, spelling?_map]

end

end Node

end DicePool
