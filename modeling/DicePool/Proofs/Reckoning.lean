/-
Module: DicePool.Proofs.Reckoning
Purpose: What an evaluation would come to if every number could be written.
Main exports: Entry.isWritten, Bound, Roll, Rolls, Roller, rollAll, rerolls, explodeAll,
  Node.bound, Node.roll, Node.reckon, Node.minimum, Node.maximum, Node.extreme, Node.isReported
-/
import DicePool.Node.Ask
import DicePool.Proofs.Selecting

/-!
A running evaluation ends where a number is too long to be written.  Here numbers may be as long
as they like, every node has its bounds and its rolls, and all steps that lead to them are listed
in order.  This is what is reckoned with in proofs: a bound is a number of the node alone,
`Node.extreme`, and a roll depends on the draws alone.

What a running evaluation makes of it is said elsewhere: it comes to what is reckoned, as long as
the lines of the steps can be written.
-/

namespace DicePool

variable {α : Type}

/-- The line of the step can be written. -/
def Entry.isWritten (entry : Entry α) : Bool :=
  entry.line.isWritable

/-! ### Bounds -/

/-- A bound, and the steps that led to it. -/
structure Bound (α : Type) where
  value : Int
  entries : List (Entry α)
deriving Repr

/-- Bounds of several nodes, and the steps that led to them. -/
structure Bounds (α : Type) where
  values : List Int
  entries : List (Entry α)
deriving Repr

namespace Node

mutual

/-- An extreme of the node. -/
def bound : Node α → Extreme → Bound α
  | die slot d, side =>
      let value := d.extreme side
      ⟨value, [⟨die slot d, side.measure, .sum [value], value⟩]⟩
  | pool slot items, side =>
      let each := boundEach items side
      let value := total each.values
      ⟨value, each.entries
        ++ [⟨pool slot items, side.measure, .sum each.values, value⟩]⟩
  | arithmetic slot operation value inner, side =>
      let node := arithmetic slot operation value inner
      if operation.isMonotone value then
        let base := bound inner side
        let result := operation.apply base.value value
        ⟨result, base.entries
          ++ [⟨node, side.measure, .calculation base.value operation value, result⟩]⟩
      else
        let low := bound inner .lowest
        let high := bound inner .highest
        let lhs := evenBase side low.value high.value
        let result := operation.apply lhs value
        ⟨result, low.entries ++ high.entries
          ++ [⟨node, side.measure, .calculation lhs operation value, result⟩]⟩
  | selection slot s threshold poolSlot items, side =>
      let each := boundEach items side
      let kept := s.select threshold each.values
      ⟨total kept, each.entries
        ++ [⟨selection slot s threshold poolSlot items, side.measure,
          .sum kept, total kept⟩]⟩
  | explosion slot rule inner, .lowest =>
      let least := bound inner .lowest
      ⟨least.value, least.entries
        ++ [⟨explosion slot rule inner, .minimum, .sum [least.value], least.value⟩]⟩
  | explosion slot rule inner, .highest =>
      ⟨unboundedTotal,
        [⟨explosion slot rule inner, .maximum, .unbounded, unboundedTotal⟩]⟩

/-- An extreme of each node, in order. -/
def boundEach : List (Node α) → Extreme → Bounds α
  | [], _ => ⟨[], []⟩
  | node :: rest, side =>
      let first := bound node side
      let others := boundEach rest side
      ⟨first.value :: others.values, first.entries ++ others.entries⟩

end

theorem boundEach_values (items : List (Node α)) (side : Extreme) :
    (boundEach items side).values
      = items.map fun node => (node.bound side).value := by
  induction items with
  | nil => rfl
  | cons node rest ih => rw [boundEach, ih, List.map_cons]

theorem boundEach_entries (items : List (Node α)) (side : Extreme) :
    (boundEach items side).entries
      = items.flatMap fun node => (node.bound side).entries := by
  induction items with
  | nil => rfl
  | cons node rest ih => rw [boundEach, ih, List.flatMap_cons]

/-- The least value of the node. -/
def minimum (node : Node α) : Int :=
  (node.bound .lowest).value

/-- The greatest value of the node. -/
def maximum (node : Node α) : Int :=
  (node.bound .highest).value

end Node

/-! ### Rolls -/

/-- The outcome of rolling one node. -/
structure Roll (α : Type) where
  value : Int
  /-- The position of the first number that is still unread. -/
  next : Nat
  entries : List (Entry α)
deriving Repr

/-- The lines of all steps can be written. -/
def Roll.isWritten (roll : Roll α) : Bool :=
  roll.entries.all Entry.isWritten

/-- The outcome of several rolls, one after the other. -/
structure Rolls (α : Type) where
  values : List Int
  next : Nat
  entries : List (Entry α)
deriving Repr

/-- Rolls from a position of the stream on. -/
abbrev Roller (α : Type) := Nat → Roll α

/-- Rolls each in order, on the draws that those before it have left. -/
def rollAll : List (Roller α) → Nat → Rolls α
  | [], position => ⟨[], position, []⟩
  | roller :: rest, position =>
      let first := roller position
      let others := rollAll rest first.next
      ⟨first.value :: others.values, others.next, first.entries ++ others.entries⟩

/-- What is rolled later goes on with the draws that are left. -/
theorem rollAll_append (rollers later : List (Roller α)) (position : Nat) :
    let first := rollAll rollers position
    let others := rollAll later first.next
    rollAll (rollers ++ later) position =
      ⟨first.values ++ others.values, others.next, first.entries ++ others.entries⟩ := by
  induction rollers generalizing position with
  | nil => rfl
  | cons roller rest ih => simp [rollAll, ih]

/-- Rolls once, and then again for as long as the last value matches, at most
`limit` times more. -/
def rerolls (again : Int → Bool) (roller : Roller α) : Nat → Nat → Rolls α
  | 0, position =>
      let only := roller position
      ⟨[only.value], only.next, only.entries⟩
  | limit + 1, position =>
      let first := roller position
      if again first.value then
        let others := rerolls again roller limit first.next
        ⟨first.value :: others.values, others.next, first.entries ++ others.entries⟩
      else
        ⟨[first.value], first.next, first.entries⟩

/-- Rolls each in order, each with all its repetitions before the next. -/
def explodeAll (rule : Explosion) : List (Roller α) → Nat → Rolls α
  | [], position => ⟨[], position, []⟩
  | roller :: rest, position =>
      let first := rerolls rule.matches? roller rule.limit position
      let others := explodeAll rule rest first.next
      ⟨first.values ++ others.values, others.next, first.entries ++ others.entries⟩

section

variable {β : Type} {items : List β} {rollers : β → Roller α} {position : Nat} {entry : Entry α}

/-- Every step of some rolls is a step of one of them. -/
theorem mem_rollAll_entries (mem : entry ∈ (rollAll (items.map rollers) position).entries) :
    ∃ item ∈ items, ∃ position, entry ∈ (rollers item position).entries := by
  induction items generalizing position with
  | nil => simp [rollAll] at mem
  | cons item rest ih =>
      simp only [List.map_cons, rollAll, List.mem_append] at mem
      rcases mem with first | later
      · exact ⟨item, by simp, position, first⟩
      · obtain ⟨item, itemMem, found⟩ := ih later
        exact ⟨item, by simp [itemMem], found⟩

/-- Every step of a roll and its repetitions is a step of a roll, and so is every value. -/
theorem mem_rerolls {again : Int → Bool} {roller : Roller α} {limit position : Nat} :
    (∀ entry ∈ (rerolls again roller limit position).entries,
      ∃ position, entry ∈ (roller position).entries) ∧
    ∀ value ∈ (rerolls again roller limit position).values,
      ∃ position, value = (roller position).value := by
  induction limit generalizing position with
  | zero =>
      refine ⟨fun entry mem => ⟨position, mem⟩, fun value mem => ⟨position, ?_⟩⟩
      exact List.mem_singleton.mp mem
  | succ limit ih =>
      simp only [rerolls]
      split
      · obtain ⟨entries, values⟩ := @ih (roller position).next
        refine ⟨fun entry mem => ?_, fun value mem => ?_⟩
        · rcases List.mem_append.mp mem with first | later
          · exact ⟨position, first⟩
          · exact entries entry later
        · rcases List.mem_cons.mp mem with first | later
          · exact ⟨position, first⟩
          · exact values value later
      · exact ⟨fun entry mem => ⟨position, mem⟩,
          fun value mem => ⟨position, List.mem_singleton.mp mem⟩⟩

/-- Every step of an explosion is a step of a roll of one of the items, and so is every value. -/
theorem mem_explodeAll {rule : Explosion} :
    (∀ entry ∈ (explodeAll rule (items.map rollers) position).entries,
      ∃ item ∈ items, ∃ position, entry ∈ (rollers item position).entries) ∧
    ∀ value ∈ (explodeAll rule (items.map rollers) position).values,
      ∃ item ∈ items, ∃ position, value = (rollers item position).value := by
  induction items generalizing position with
  | nil => simp [explodeAll]
  | cons item rest ih =>
      simp only [List.map_cons, explodeAll, List.mem_append]
      obtain ⟨entries, values⟩ :=
        @ih (rerolls rule.matches? (rollers item) rule.limit position).next
      refine ⟨fun entry mem => ?_, fun value mem => ?_⟩
      · rcases mem with first | later
        · exact ⟨item, by simp, mem_rerolls.1 entry first⟩
        · obtain ⟨item, itemMem, found⟩ := entries entry later
          exact ⟨item, by simp [itemMem], found⟩
      · rcases mem with first | later
        · exact ⟨item, by simp, mem_rerolls.2 value first⟩
        · obtain ⟨item, itemMem, found⟩ := values value later
          exact ⟨item, by simp [itemMem], found⟩

end

namespace Node

/-- The outcome of a node that adds up the values `kept` of some rolls. -/
def summed (node : Node α) (rolls : Rolls α) (kept : List Int) : Roll α :=
  ⟨total kept, rolls.next, rolls.entries ++ [⟨node, .roll, .sum kept, total kept⟩]⟩

/-- A roller with itself as its only leaf. -/
def single (roller : Roller α) : Roller α × List (Roller α) :=
  (roller, [roller])

mutual

/-- The roller of a node, and the rollers of its leaves. -/
def rollers (draws : Draws) : Node α → Roller α × List (Roller α)
  | die slot d =>
      single fun position =>
        let value := d.face (draws position)
        ⟨value, position + 1, [⟨die slot d, .roll, .sum [value], value⟩]⟩
  | pool slot items =>
      let each := rollersEach draws items
      (fun position =>
        let rolls := rollAll (each.map (·.1)) position
        summed (pool slot items) rolls rolls.values,
       each.flatMap (·.2))
  | arithmetic slot operation value inner =>
      let roller := (rollers draws inner).1
      single fun position =>
        let base := roller position
        let result := operation.apply base.value value
        ⟨result, base.next, base.entries
          ++ [⟨arithmetic slot operation value inner, .roll,
            .calculation base.value operation value, result⟩]⟩
  | selection slot s threshold poolSlot items =>
      let each := rollersEach draws items
      single fun position =>
        let rolls := rollAll (each.map (·.1)) position
        summed (selection slot s threshold poolSlot items) rolls
          (s.select threshold rolls.values)
  | explosion slot rule inner =>
      let leaves := (rollers draws inner).2
      single fun position =>
        let rolls := explodeAll rule leaves position
        summed (explosion slot rule inner) rolls rolls.values

/-- The rollers of several nodes. -/
def rollersEach (draws : Draws) :
    List (Node α) → List (Roller α × List (Roller α))
  | [] => []
  | node :: rest => rollers draws node :: rollersEach draws rest

end

/-- Rolls the node. -/
def roll (draws : Draws) (node : Node α) : Roller α :=
  (node.rollers draws).1

theorem rollersEach_eq_map (draws : Draws) (items : List (Node α)) :
    rollersEach draws items = items.map (rollers draws) := by
  induction items with
  | nil => simp [rollersEach]
  | cons node rest ih => simp [rollersEach, ih]

mutual

/-- The second part of `rollers` holds the rollers of the leaves. -/
theorem rollers_leaves (draws : Draws) :
    (node : Node α) → (node.rollers draws).2 = node.leaves.map (roll draws)
  | die _ _ => by simp [rollers, leaves, single, roll]
  | pool _ items => by
      simpa [rollers, leaves] using rollersEach_leaves draws items
  | arithmetic _ _ _ _ => by simp [rollers, leaves, single, roll]
  | selection _ _ _ _ _ => by simp [rollers, leaves, single, roll]
  | explosion _ _ _ => by simp [rollers, leaves, single, roll]

/-- The leaves of several nodes have the rollers of the leaves of each. -/
theorem rollersEach_leaves (draws : Draws) :
    (items : List (Node α)) →
      (rollersEach draws items).flatMap (·.2)
        = (leavesEach items).map (roll draws)
  | [] => by simp [rollersEach, leavesEach]
  | node :: rest => by
      simp [rollersEach, leavesEach, rollers_leaves draws node,
        rollersEach_leaves draws rest]

end

/-- A die shows the face of the next draw. -/
theorem roll_die (draws : Draws) (slot : α) (d : Die) (position : Nat) :
    (die slot d).roll draws position
      = ⟨d.face (draws position), position + 1,
          [⟨die slot d, .roll, .sum [d.face (draws position)], d.face (draws position)⟩]⟩ := by
  simp [roll, rollers, single]

/-- A pool adds up the rolls of its items. -/
theorem roll_pool (draws : Draws) (slot : α) (items : List (Node α))
    (position : Nat) :
    (pool slot items).roll draws position
      = summed (pool slot items) (rollAll (items.map (roll draws)) position)
          (rollAll (items.map (roll draws)) position).values := by
  simp only [roll, rollers, rollersEach_eq_map, List.map_map]
  rfl

/-- Arithmetic calculates with the roll of its inner node. -/
theorem roll_arithmetic (draws : Draws) (slot : α) (operation : Operation)
    (value : Nat) (inner : Node α) (position : Nat) :
    (arithmetic slot operation value inner).roll draws position
      = ⟨operation.apply (inner.roll draws position).value value,
          (inner.roll draws position).next,
          (inner.roll draws position).entries
            ++ [⟨arithmetic slot operation value inner, .roll,
              .calculation (inner.roll draws position).value operation value,
              operation.apply (inner.roll draws position).value value⟩]⟩ := by
  simp [roll, rollers, single]

/-- A selection rolls all items of its pool and adds up what it selects. -/
theorem roll_selection (draws : Draws) (slot : α) (s : Selection)
    (threshold : Nat) (poolSlot : α) (items : List (Node α)) (position : Nat) :
    (selection slot s threshold poolSlot items).roll draws position
      = summed (selection slot s threshold poolSlot items)
          (rollAll (items.map (roll draws)) position)
          (s.select threshold (rollAll (items.map (roll draws)) position).values) := by
  simp only [roll, rollers, rollersEach_eq_map, List.map_map, single]
  rfl

/-- An explosion rolls the leaves of its inner node, each with its repetitions, and
adds up everything. -/
theorem roll_explosion (draws : Draws) (slot : α) (rule : Explosion)
    (inner : Node α) (position : Nat) :
    (explosion slot rule inner).roll draws position
      = summed (explosion slot rule inner)
          (explodeAll rule (inner.leaves.map (roll draws)) position)
          (explodeAll rule (inner.leaves.map (roll draws)) position).values := by
  simp only [roll, rollers, single, rollers_leaves]

/-- Reckons with one measure. Only a roll reads from the stream. -/
def reckon (draws : Draws) (node : Node α) : Measure → Roller α
  | .roll => node.roll draws
  | .minimum => fun position =>
      let least := node.bound .lowest
      ⟨least.value, position, least.entries⟩
  | .maximum => fun position =>
      let greatest := node.bound .highest
      ⟨greatest.value, position, greatest.entries⟩

/-! ### The numbers of a node alone -/

/-- The bound of the node at one end. -/
def extreme (side : Extreme) (node : Node α) : Int :=
  (node.bound side).value

theorem extreme_lowest (node : Node α) : node.extreme .lowest = node.minimum := rfl

theorem extreme_highest (node : Node α) : node.extreme .highest = node.maximum := rfl

@[simp] theorem bound_value (node : Node α) (side : Extreme) :
    (node.bound side).value = node.extreme side := rfl

@[simp] theorem boundEach_values_eq (items : List (Node α)) (side : Extreme) :
    (boundEach items side).values = items.map (extreme side) := by
  simp [boundEach_values]

@[simp] theorem extreme_die (side : Extreme) (slot : α) (d : Die) :
    (die slot d).extreme side = d.extreme side := by
  simp [extreme, bound]

theorem extreme_pool (side : Extreme) (slot : α) (items : List (Node α)) :
    (pool slot items).extreme side = (items.map (extreme side)).sum := by
  rw [extreme, bound]
  simp

theorem extreme_arithmetic (side : Extreme) (slot : α) (operation : Operation) (value : Nat)
    (inner : Node α) :
    (arithmetic slot operation value inner).extreme side
      = operation.apply
          (if operation.isMonotone value then inner.extreme side
            else evenBase side inner.minimum inner.maximum)
          value := by
  rw [extreme, bound]
  split <;> simp [extreme_lowest, extreme_highest]

theorem extreme_selection (side : Extreme) (slot : α) (s : Selection) (threshold : Nat)
    (poolSlot : α) (items : List (Node α)) :
    (selection slot s threshold poolSlot items).extreme side
      = (s.select threshold (items.map (extreme side))).sum := by
  rw [extreme, bound]
  simp

theorem minimum_explosion (slot : α) (rule : Explosion) (inner : Node α) :
    (explosion slot rule inner).minimum = inner.minimum := by
  rw [← extreme_lowest, extreme, bound]
  simp [extreme_lowest]

theorem maximum_explosion (slot : α) (rule : Explosion) (inner : Node α) :
    (explosion slot rule inner).maximum = unboundedTotal := by
  rw [← extreme_highest, extreme, bound]

/-- The lines of all steps to the bound at this end can be written. -/
def isReported (side : Extreme) (node : Node α) : Bool :=
  (node.bound side).entries.all Entry.isWritten

/-! ### Bounds come from the bounds of the parts -/

section

variable {β : Type} {inner : Node α} {other : Node β}

theorem extreme_arithmetic_congr (same : ∀ side, other.extreme side = inner.extreme side)
    (slot : α) (slot' : β) (operation : Operation) (value : Nat) (side : Extreme) :
    (arithmetic slot' operation value other).extreme side =
      (arithmetic slot operation value inner).extreme side := by
  rw [extreme_arithmetic, extreme_arithmetic, same, ← extreme_lowest, ← extreme_highest, same,
    same, extreme_lowest, extreme_highest]

/-- A selection does not see the order of the items. -/
theorem extreme_selection_congr {items : List (Node α)} {others : List (Node β)}
    (same : ∀ side, (items.map (extreme side)).Perm (others.map (extreme side)))
    (slot : α) (slot' : β) (s : Selection) (threshold : Nat) (poolSlot : α) (poolSlot' : β)
    (side : Extreme) :
    (selection slot' s threshold poolSlot' others).extreme side =
      (selection slot s threshold poolSlot items).extreme side := by
  rw [extreme_selection, extreme_selection, s.select_perm threshold (same side)]

/-- The rule of an explosion does not show in its bounds. -/
theorem extreme_explosion_congr (same : ∀ side, other.extreme side = inner.extreme side)
    (slot : α) (slot' : β) (rule rule' : Explosion) (side : Extreme) :
    (explosion slot' rule' other).extreme side = (explosion slot rule inner).extreme side := by
  cases side with
  | lowest =>
      rw [extreme_lowest, extreme_lowest, minimum_explosion, minimum_explosion, ← extreme_lowest,
        same, extreme_lowest]
  | highest => rw [extreme_highest, extreme_highest, maximum_explosion, maximum_explosion]

end

end Node

end DicePool
