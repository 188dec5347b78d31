/-
Module: DicePool.Proofs.Numbering
Purpose: Slots do not matter to what a node is, and numbering gives every node a slot of its own.
Main exports: Node.extreme_map, Node.checked_map, Node.replyAll_map, Node.unslotted_numbered,
  Node.replyAll_numbered, Node.checked_numbered, SlotsApart, Node.copies, Node.slotsApart_numbered
-/
import DicePool.Proofs.Housing

/-!
The bounds and the checks of a tree are those of the tree in other slots, and so is every step of
its evaluation, but for the slot (`Node.replyAll_map`).  Two trees in which the same nodes stand in
different slots are equal once all slots are the same: so numbering a tree changes nothing about it
(`Node.checked_numbered`, `Node.replyAll_numbered`).

What numbering adds is that a slot tells which node of the tree is meant (`SlotsApart`).
-/

namespace DicePool

namespace Node

variable {α β : Type}

/-! ### Trees in other slots -/

section

variable (f : α → β)

@[simp] theorem extreme_map (side : Extreme) (node : Node α) :
    (node.map f).extreme side = node.extreme side := by
  have ofItems : ∀ {items : List (Node α)},
      (∀ item ∈ items, ∀ side, (item.map f).extreme side = item.extreme side) →
        ∀ side, (items.map (map f)).map (extreme side) = items.map (extreme side) := by
    intro items each side
    rw [List.map_map]
    exact List.map_congr_left fun item mem => each item mem side
  induction node generalizing side with
  | die slot d => rw [map, extreme_die, extreme_die]
  | pool slot items ih => rw [map, mapEach_eq_map, extreme_pool, extreme_pool, ofItems ih]
  | arithmetic slot operation value inner ih =>
      exact extreme_arithmetic_congr ih slot (f slot) operation value side
  | selection slot s threshold poolSlot items ih =>
      rw [map, mapEach_eq_map]
      exact extreme_selection_congr (fun side => .of_eq (ofItems ih side).symm) slot (f slot) s
        threshold poolSlot (f poolSlot) side
  | explosion slot rule inner ih => exact extreme_explosion_congr ih slot (f slot) rule rule side

@[simp] theorem range_map (node : Node α) : (node.map f).range = node.range :=
  range_eq fun side => extreme_map f side node

@[simp] theorem isReported_map (side : Extreme) (node : Node α) :
    (node.map f).isReported side = node.isReported side := by
  have reported : ∀ {items : List (Node α)},
      (∀ item ∈ items, ∀ side, (item.map f).isReported side = item.isReported side) → ∀ side,
        (items.map (map f)).all (isReported side) = items.all (isReported side) := by
    intro items each side
    rw [Bool.eq_iff_iff, List.all_eq_true, List.all_eq_true, List.forall_mem_map]
    exact forall₂_congr fun item mem => by rw [each item mem side]
  have extremes : ∀ (items : List (Node α)) (side : Extreme),
      (items.map (map f)).map (extreme side) = items.map (extreme side) := by
    intro items side
    rw [List.map_map]
    exact List.map_congr_left fun item _ => extreme_map f side item
  induction node generalizing side with
  | die slot d => rw [map, isReported_die, isReported_die]
  | pool slot items ih =>
      rw [map, mapEach_eq_map, isReported_pool, isReported_pool, reported ih, extremes]
  | arithmetic slot operation value inner ih =>
      simp only [map, isReported_arithmetic, ih, ← extreme_lowest, ← extreme_highest, extreme_map]
  | selection slot s threshold poolSlot items ih =>
      rw [map, mapEach_eq_map, isReported_selection, isReported_selection, reported ih, extremes]
  | explosion slot rule inner ih =>
      cases side with
      | lowest =>
          rw [map, (isReported_explosion (f slot) rule _).1, (isReported_explosion slot rule _).1,
            ih, ← extreme_lowest, ← extreme_lowest, extreme_map]
      | highest =>
          rw [map, (isReported_explosion (f slot) rule _).2, (isReported_explosion slot rule _).2]

/-- A node can be exploded in any slot. -/
theorem explodes_map {node : Node α} {rule : Explosion} :
    (node.map f).Explodes rule ↔ node.Explodes rule := by
  have ranges : (node.map f).leaves.map range = node.leaves.map range := by
    rw [leaves_map, List.map_map]
    exact List.map_congr_left fun leaf _ => range_map f leaf
  constructor
  · rintro ⟨reports, suits⟩
    rw [ranges] at suits
    refine ⟨fun leaf mem side => ?_, suits⟩
    rw [← isReported_map f]
    exact reports _ (leaves_map f node ▸ List.mem_map_of_mem mem) side
  · rintro ⟨reports, suits⟩
    rw [← ranges] at suits
    refine ⟨fun leaf mem side => ?_, suits⟩
    rw [leaves_map] at mem
    obtain ⟨old, oldMem, rfl⟩ := List.mem_map.mp mem
    rw [isReported_map]
    exact reports old oldMem side

/-- A node is checked in any slot. -/
theorem checked_map (node : Node α) : (node.map f).Checked ↔ node.Checked := by
  cases node with
  | die slot d => rfl
  | pool slot items => simp [map, Checked]
  | arithmetic slot operation value inner => rfl
  | selection slot s threshold poolSlot items => simp [map, Checked]
  | explosion slot rule inner => exact explodes_map f

/-- Questions in a row are answered alike in any slots, and take the same steps. -/
theorem replyAll_map (draws : Draws) (node : Node α) (measures : List Measure) (position : Nat) :
    let same := node.replyAll everySlot draws measures position
    (node.map f).replyAll everySlot draws measures position
      = ⟨same.results, same.next, same.entries.map (stepIn f)⟩ := by
  induction measures generalizing position with
  | nil => rfl
  | cons measure rest ih =>
      dsimp only at ih ⊢
      simp only [replyAll, reply_map, Outcome.inSlots, heardOf_everySlot, ih, List.map_append]

end

/-! ### Nodes in another slot -/

@[simp] theorem slot_inSlot (slot : α) (node : Node α) : (node.inSlot slot).slot = slot := by
  cases node <;> rfl

@[simp] theorem inside_inSlot (slot : α) (node : Node α) :
    (node.inSlot slot).inside = node.inside := by
  cases node <;> simp [inSlot]

@[simp] theorem isEmptyPool_inSlot (slot : α) (node : Node α) :
    (node.inSlot slot).isEmptyPool = node.isEmptyPool := by
  cases node with
  | pool _ items => cases items <;> rfl
  | _ => rfl

theorem Checked.inSlot {node : Node α} (checked : node.Checked) (slot : α) :
    (node.inSlot slot).Checked := by
  cases node <;> exact checked

/-! ### Numbered trees -/

/-- The tree with nothing in its slots. -/
def unslotted (node : Node α) : Node Unit :=
  node.map fun _ => ()

mutual

/-- Numbering changes slots only. -/
theorem unslotted_numbered (start : Nat) : ∀ node : Node α,
    (numbered start node).1.unslotted = node.unslotted
  | die _ d => rfl
  | pool _ items => by
      simp only [numbered, unslotted, map, mapEach_numberedEach]
  | arithmetic _ operation value inner => by
      have same := unslotted_numbered (start + 1) inner
      simp only [unslotted] at same
      simp only [numbered, unslotted, map, same]
  | selection _ s threshold _ items => by
      simp only [numbered, unslotted, map, mapEach_numberedEach]
  | explosion _ rule inner => by
      have same := unslotted_numbered (start + 1) inner
      simp only [unslotted] at same
      simp only [numbered, unslotted, map, same]

theorem mapEach_numberedEach (start : Nat) : ∀ items : List (Node α),
    mapEach (fun _ => ()) (numberedEach start items).1 = mapEach (fun _ => ()) items
  | [] => rfl
  | node :: rest => by
      have first := unslotted_numbered start node
      have others := mapEach_numberedEach (numbered start node).2 rest
      simp only [unslotted] at first
      simp only [numberedEach, mapEach, first, others]

end

theorem title_numbered (start : Nat) (node : Node α) :
    (numbered start node).1.title = node.title := by
  rw [← title_map fun _ => (), ← unslotted, unslotted_numbered, unslotted, title_map]

theorem spelling?_numbered (start : Nat) (node : Node α) :
    (numbered start node).1.spelling? = node.spelling? := by
  rw [← spelling?_map fun _ => (), ← unslotted, unslotted_numbered, unslotted, spelling?_map]

/-- A numbered tree answers like the tree, and its steps are reported alike. -/
theorem replyAll_numbered (start : Nat) (draws : Draws) (node : Node α) (measures : List Measure)
    (position : Nat) :
    let asked := (numbered start node).1.replyAll everySlot draws measures position
    let same := node.replyAll everySlot draws measures position
    asked.results = same.results ∧
      asked.entries.map Entry.report = same.entries.map Entry.report := by
  intro asked same
  have unslotted := congrArg (replyAll everySlot draws · measures position)
    (unslotted_numbered start node)
  simp only [Node.unslotted, replyAll_map] at unslotted
  obtain ⟨results, -, entries⟩ := Outcomes.mk.inj unslotted
  refine ⟨results, ?_⟩
  have reports := congrArg (List.map Entry.report) entries
  simpa only [List.map_map, Function.comp_def, report_stepIn] using reports

/-- A numbered tree is as checked as the tree. -/
theorem checked_numbered {node : Node α} (checked : ∀ sub ∈ node.subtrees, sub.Checked)
    (start : Nat) : ∀ sub ∈ (numbered start node).1.subtrees, sub.Checked := by
  intro sub mem
  have unslottedMem : sub.unslotted ∈ node.unslotted.subtrees := by
    rw [← unslotted_numbered start node, unslotted, subtrees_map]
    exact List.mem_map_of_mem mem
  rw [unslotted, subtrees_map] at unslottedMem
  obtain ⟨old, oldMem, same⟩ := List.mem_map.mp unslottedMem
  rw [← checked_map (fun _ => ()) sub, ← unslotted, ← same, checked_map]
  exact checked old oldMem

end Node

/-! ### Nodes in different slots -/

/-- A slot tells which of the nodes is meant. -/
def SlotsApart (nodes : List (Node Nat)) : Prop :=
  ∀ one ∈ nodes, ∀ two ∈ nodes, one.slot = two.slot → one = two

namespace SlotsApart

theorem nil : SlotsApart [] :=
  nofun

theorem cons {node : Node Nat} {rest : List (Node Nat)} (apart : SlotsApart rest)
    (alone : ∀ other ∈ rest, other.slot ≠ node.slot) : SlotsApart (node :: rest) := by
  intro one oneMem two twoMem same
  rcases List.mem_cons.mp oneMem with first | oneRest
  · rcases List.mem_cons.mp twoMem with second | twoRest
    · rw [first, second]
    · exact absurd (first ▸ same.symm) (alone two twoRest)
  · rcases List.mem_cons.mp twoMem with second | twoRest
    · exact absurd (second ▸ same) (alone one oneRest)
    · exact apart one oneRest two twoRest same

theorem singleton (node : Node Nat) : SlotsApart [node] :=
  nil.cons nofun

/-- Nodes before a slot and nodes from it on are in different slots. -/
theorem append {nodes later : List (Node Nat)} {bound : Nat} (apart : SlotsApart nodes)
    (apartLater : SlotsApart later) (below : ∀ node ∈ nodes, node.slot < bound)
    (above : ∀ node ∈ later, bound ≤ node.slot) : SlotsApart (nodes ++ later) := by
  intro one oneMem two twoMem same
  rcases List.mem_append.mp oneMem with oneMem | oneMem <;>
    rcases List.mem_append.mp twoMem with twoMem | twoMem
  · exact apart one oneMem two twoMem same
  · exact absurd (same ▸ below one oneMem) (Nat.not_lt.mpr (above two twoMem))
  · exact absurd (same ▸ below two twoMem) (Nat.not_lt.mpr (above one oneMem))
  · exact apartLater one oneMem two twoMem same

theorem of_subset {nodes others : List (Node Nat)} (apart : SlotsApart others)
    (subset : nodes ⊆ others) : SlotsApart nodes :=
  fun one oneMem two twoMem => apart one (subset oneMem) two (subset twoMem)

end SlotsApart

namespace Node

/-- Copies of a node, in slots that follow each other. -/
def copies (node : Node Nat) (first count : Nat) : List (Node Nat) :=
  (List.range count).map fun index => node.inSlot (first + index)

theorem mem_copies {node copy : Node Nat} {first count : Nat} :
    copy ∈ node.copies first count ↔ ∃ index < count, node.inSlot (first + index) = copy := by
  simp [copies]

theorem slot_of_mem_copies {node copy : Node Nat} {first count : Nat}
    (mem : copy ∈ node.copies first count) : first ≤ copy.slot ∧ copy.slot < first + count := by
  obtain ⟨index, inBounds, rfl⟩ := mem_copies.mp mem
  rw [slot_inSlot]
  exact ⟨Nat.le_add_right _ _, Nat.add_lt_add_left inBounds _⟩

theorem slotsApart_copies (node : Node Nat) (first count : Nat) :
    SlotsApart (node.copies first count) := by
  intro one oneMem two twoMem same
  obtain ⟨index, -, rfl⟩ := mem_copies.mp oneMem
  obtain ⟨other, -, rfl⟩ := mem_copies.mp twoMem
  rw [slot_inSlot, slot_inSlot] at same
  rw [same]

variable {α : Type}

mutual

/-- No slot of a numbered tree comes before the first. -/
theorem le_slot_of_mem_numbered (start : Nat) : ∀ node : Node α,
    ∀ sub ∈ (numbered start node).1.subtrees, start ≤ sub.slot
  | die _ d => by simp [numbered, subtrees, slot]
  | pool _ items => by
      have each := le_slot_of_mem_numberedEach (start + 1) items
      simp only [numbered, subtrees, inside_pool, List.forall_mem_cons, slot]
      exact ⟨Nat.le_refl _, fun sub mem => Nat.le_of_succ_le (each sub mem)⟩
  | arithmetic _ operation value inner => by
      have each := le_slot_of_mem_numbered (start + 1) inner
      simp only [numbered, subtrees, inside_arithmetic, List.forall_mem_cons, slot] at each ⊢
      exact ⟨Nat.le_refl _, Nat.le_of_succ_le each.1, fun sub mem =>
        Nat.le_of_succ_le (each.2 sub mem)⟩
  | selection _ s threshold _ items => by
      have each := le_slot_of_mem_numberedEach (start + 2) items
      simp only [numbered, subtrees, inside_selection, inside_pool, List.forall_mem_cons, slot]
      exact ⟨Nat.le_refl _, Nat.le_succ _, fun sub mem =>
        Nat.le_trans (Nat.le_add_right _ 2) (each sub mem)⟩
  | explosion _ rule inner => by
      have each := le_slot_of_mem_numbered (start + 1) inner
      simp only [numbered, subtrees, inside_explosion, List.forall_mem_cons, slot] at each ⊢
      exact ⟨Nat.le_refl _, Nat.le_of_succ_le each.1, fun sub mem =>
        Nat.le_of_succ_le (each.2 sub mem)⟩

theorem le_slot_of_mem_numberedEach (start : Nat) : ∀ items : List (Node α),
    ∀ sub ∈ (numberedEach start items).1.flatMap subtrees, start ≤ sub.slot
  | [] => nofun
  | node :: rest => by
      obtain ⟨lt, -⟩ := slotsBelow_numbered start node
      have first := le_slot_of_mem_numbered start node
      have others := le_slot_of_mem_numberedEach (numbered start node).2 rest
      rw [numberedEach, List.flatMap_cons]
      exact List.forall_mem_append.mpr
        ⟨first, fun sub mem => Nat.le_trans (Nat.le_of_lt lt) (others sub mem)⟩

end

mutual

/-- Every node of a numbered tree is in a slot of its own. -/
theorem slotsApart_numbered (start : Nat) : ∀ node : Node α,
    SlotsApart (numbered start node).1.subtrees
  | die _ d => .singleton _
  | pool _ items => by
      rw [numbered, subtrees, inside_pool]
      exact (slotsApart_numberedEach (start + 1) items).cons fun sub mem =>
        Nat.ne_of_gt (le_slot_of_mem_numberedEach (start + 1) items sub mem)
  | arithmetic _ operation value inner => by
      rw [numbered, subtrees, inside_arithmetic]
      exact (slotsApart_numbered (start + 1) inner).cons fun sub mem =>
        Nat.ne_of_gt (le_slot_of_mem_numbered (start + 1) inner sub mem)
  | selection _ s threshold _ items => by
      have above := le_slot_of_mem_numberedEach (start + 2) items
      have pool :
          SlotsApart (Node.pool (start + 1) (numberedEach (start + 2) items).1).subtrees := by
        rw [subtrees, inside_pool]
        exact (slotsApart_numberedEach (start + 2) items).cons fun sub mem =>
          Nat.ne_of_gt (above sub mem)
      rw [numbered, subtrees, inside_selection]
      refine pool.cons fun sub mem => ?_
      rw [subtrees, inside_pool] at mem
      rcases List.mem_cons.mp mem with rfl | mem
      · exact Nat.succ_ne_self start
      · exact Nat.ne_of_gt (Nat.lt_of_succ_lt (above sub mem))
  | explosion _ rule inner => by
      rw [numbered, subtrees, inside_explosion]
      exact (slotsApart_numbered (start + 1) inner).cons fun sub mem =>
        Nat.ne_of_gt (le_slot_of_mem_numbered (start + 1) inner sub mem)

theorem slotsApart_numberedEach (start : Nat) : ∀ items : List (Node α),
    SlotsApart ((numberedEach start items).1.flatMap subtrees)
  | [] => .nil
  | node :: rest => by
      obtain ⟨-, below⟩ := slotsBelow_numbered start node
      rw [numberedEach, List.flatMap_cons]
      exact (slotsApart_numbered start node).append (slotsApart_numberedEach _ rest) below
        (le_slot_of_mem_numberedEach _ rest)

end

end Node

end DicePool
