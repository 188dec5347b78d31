/-
Module: DicePool.Proofs.Housing
Purpose: The nodes of a session are in slots of the session, and all of them are followed if only
  such nodes are made.
Main exports: Node.SlotsBelow, Node.slotsBelow_numbered, Session.Loud, Session.Loud.step
-/
import DicePool.Proofs.Following
import DicePool.Proofs.Serving

/-!
A session numbers its slots from zero on and keeps a mark for each.  A node that is made takes
the next slots, and otherwise it is put together from nodes that have slots already, so that
no node is ever in a slot without a mark (`Node.SlotsBelow`).

In a session in which every node is made followed, and in which no node is ever left out of
that, all trees are followed through and through: `Session.Loud.step`.
-/

namespace DicePool

/-! ### Slots of a tree -/

namespace Node

/-- All slots of the tree come before this one. -/
def SlotsBelow (bound : Nat) (node : Node Nat) : Prop :=
  ∀ sub ∈ node.subtrees, sub.slot < bound

theorem SlotsBelow.mono {bound later : Nat} {node : Node Nat} (below : node.SlotsBelow bound)
    (le : bound ≤ later) : node.SlotsBelow later :=
  fun sub mem => Nat.lt_of_lt_of_le (below sub mem) le

theorem SlotsBelow.of_mem {bound : Nat} {node sub : Node Nat} (below : node.SlotsBelow bound)
    (mem : sub ∈ node.subtrees) : sub.SlotsBelow bound :=
  fun deeper deeperMem => below deeper (subtrees_subset mem deeperMem)

theorem slotsBelow_iff {bound : Nat} {node : Node Nat} :
    node.SlotsBelow bound ↔ node.slot < bound ∧ ∀ sub ∈ node.inside, sub.slot < bound :=
  List.forall_mem_cons

@[simp] theorem slotsBelow_die {bound slot : Nat} {d : Die} :
    (die slot d).SlotsBelow bound ↔ slot < bound := by
  simp [slotsBelow_iff, Node.slot]

@[simp] theorem slotsBelow_pool {bound slot : Nat} {items : List (Node Nat)} :
    (pool slot items).SlotsBelow bound ↔
      slot < bound ∧ ∀ item ∈ items, item.SlotsBelow bound := by
  rw [slotsBelow_iff, inside_pool, List.forall_mem_flatMap]
  exact Iff.rfl

@[simp] theorem slotsBelow_arithmetic {bound slot : Nat} {operation : Operation} {value : Nat}
    {inner : Node Nat} :
    (arithmetic slot operation value inner).SlotsBelow bound ↔
      slot < bound ∧ inner.SlotsBelow bound := by
  rw [slotsBelow_iff, inside_arithmetic]
  exact Iff.rfl

@[simp] theorem slotsBelow_selection {bound slot : Nat} {s : Selection} {threshold poolSlot : Nat}
    {items : List (Node Nat)} :
    (selection slot s threshold poolSlot items).SlotsBelow bound ↔
      slot < bound ∧ (pool poolSlot items).SlotsBelow bound := by
  rw [slotsBelow_iff, inside_selection]
  exact Iff.rfl

@[simp] theorem slotsBelow_explosion {bound slot : Nat} {rule : Explosion} {inner : Node Nat} :
    (explosion slot rule inner).SlotsBelow bound ↔ slot < bound ∧ inner.SlotsBelow bound := by
  rw [slotsBelow_iff, inside_explosion]
  exact Iff.rfl

/-- A copy of a node is below a bound if its own slot is. -/
theorem SlotsBelow.inSlot {bound slot : Nat} {node : Node Nat} (below : node.SlotsBelow bound)
    (inBounds : slot < bound) : (node.inSlot slot).SlotsBelow bound := by
  cases node <;> simp [Node.inSlot] at below ⊢ <;> tauto

theorem slotsBelow_ofItems {bound slot : Nat} {items : List (Node Nat)} (inBounds : slot < bound)
    (each : ∀ item ∈ items, item.SlotsBelow bound) : (ofItems slot items).SlotsBelow bound := by
  rw [ofItems, slotsBelow_pool]
  exact ⟨inBounds, fun item mem => each item (List.mem_of_mem_filter mem)⟩

mutual

/-- A tree that is numbered takes some slots from the first on, and no others. -/
theorem slotsBelow_numbered {α : Type} (start : Nat) : ∀ node : Node α,
    start < (numbered start node).2 ∧ (numbered start node).1.SlotsBelow (numbered start node).2
  | die _ d => by simp [numbered]
  | pool _ items => by
      obtain ⟨le, each⟩ := slotsBelow_numberedEach (start + 1) items
      rw [numbered, slotsBelow_pool]
      exact ⟨le, le, each⟩
  | arithmetic _ operation value inner => by
      obtain ⟨lt, below⟩ := slotsBelow_numbered (start + 1) inner
      rw [numbered, slotsBelow_arithmetic]
      exact ⟨Nat.lt_of_succ_lt lt, Nat.lt_of_succ_lt lt, below⟩
  | selection _ s threshold _ items => by
      obtain ⟨le, each⟩ := slotsBelow_numberedEach (start + 2) items
      rw [numbered, slotsBelow_selection, slotsBelow_pool]
      exact ⟨Nat.lt_of_succ_lt le, Nat.lt_of_succ_lt le, le, each⟩
  | explosion _ rule inner => by
      obtain ⟨lt, below⟩ := slotsBelow_numbered (start + 1) inner
      rw [numbered, slotsBelow_explosion]
      exact ⟨Nat.lt_of_succ_lt lt, Nat.lt_of_succ_lt lt, below⟩

theorem slotsBelow_numberedEach {α : Type} (start : Nat) : ∀ items : List (Node α),
    start ≤ (numberedEach start items).2 ∧
      ∀ item ∈ (numberedEach start items).1, item.SlotsBelow (numberedEach start items).2
  | [] => by simp [numberedEach]
  | node :: rest => by
      obtain ⟨lt, below⟩ := slotsBelow_numbered start node
      obtain ⟨le, each⟩ := slotsBelow_numberedEach (numbered start node).2 rest
      rw [numberedEach]
      exact ⟨Nat.le_trans (Nat.le_of_lt lt) le, List.forall_mem_cons.mpr ⟨below.mono le, each⟩⟩

end

end Node

/-! ### Sessions in which everything is followed -/

/-- The request that makes and keeps all nodes followed. -/
def Request.loud : Request → Request
  | .make name _ recipe => .make name true recipe
  | .follow node _ => .follow node true
  | request => request

namespace Session

open Node

theorem exists_of_find {session : Session} {name : String} {node : Node Nat}
    (found : session.find name = .ok node) : ∃ key, (key, node) ∈ session.nodes := by
  unfold find at found
  split at found
  · next key node' same =>
      cases found
      exact ⟨key, List.mem_of_find?_eq_some same⟩
  · contradiction

theorem inner?_mem_subtrees {node inner : Node Nat} (same : node.inner? = some inner) :
    inner ∈ node.subtrees := by
  cases node <;> cases same <;> simp [subtrees]

theorem child_mem_subtrees {node item : Node Nat} {index : Int}
    (same : child node index = .ok item) : item ∈ node.subtrees := by
  unfold child at same
  split at same
  · next slot items =>
      dsimp only at same
      generalize (if index < 0 then index + items.length else index) = place at same
      split at same
      · contradiction
      · split at same
        · next found =>
            cases same
            exact List.mem_cons_of_mem _ (item_mem_inside_pool slot (List.mem_of_getElem? found))
        · contradiction
  · contradiction

/-- All slots are followed, and no node is in a slot that the session does not have. -/
structure Loud (session : Session) : Prop where
  heard : ∀ slot < session.marks.size, session.heard slot = true
  housed : ∀ named ∈ session.nodes, named.2.SlotsBelow session.marks.size

theorem loud_empty : empty.Loud :=
  ⟨fun _ impossible => absurd impossible (Nat.not_lt_zero _), nofun⟩

namespace Loud

variable {session : Session} (loud : session.Loud)

include loud

theorem followed {node : Node Nat} (below : node.SlotsBelow session.marks.size) :
    node.Followed session.heard :=
  fun sub mem => loud.heard _ (below sub mem)

theorem slotsBelow_of_find {name : String} {node : Node Nat}
    (found : session.find name = .ok node) : node.SlotsBelow session.marks.size := by
  obtain ⟨key, mem⟩ := exists_of_find found
  exact loud.housed _ mem

theorem slotsBelow_of_findAll {names : List String} {items : List (Node Nat)}
    (found : session.findAll names = .ok items) :
    ∀ item ∈ items, item.SlotsBelow session.marks.size := by
  induction names generalizing items with
  | nil =>
      cases found
      exact nofun
  | cons name rest ih =>
      rw [findAll, List.mapM_cons] at found
      obtain ⟨node, first, found⟩ := except_bind_eq_ok.mp found
      obtain ⟨nodes, others, found⟩ := except_bind_eq_ok.mp found
      cases found
      exact List.forall_mem_cons.mpr ⟨loud.slotsBelow_of_find first, ih others⟩

theorem record {α : Type} (entries : List (Entry α)) : (session.record entries).Loud :=
  ⟨loud.heard, loud.housed⟩

theorem withSlots (count : Nat) : (session.withSlots count true).Loud := by
  refine ⟨fun slot inBounds => ?_, fun named mem => (loud.housed named mem).mono ?_⟩
  · by_cases old : slot < session.marks.size
    · have same := loud.heard slot old
      simpa [Session.heard, Session.withSlots, Array.getElem?_append, old] using same
    · have new : slot - session.marks.size < count := by
        simp only [Session.withSlots, Array.size_append, Array.size_replicate] at inBounds
        omega
      simp [Session.heard, Session.withSlots, Array.getElem?_append, old, new]
  · simp [Session.withSlots]

theorem place {node : Node Nat} (below : node.SlotsBelow session.marks.size) (name : String) :
    (session.place name node).1.Loud :=
  ⟨loud.heard, List.forall_mem_cons.mpr ⟨below, loud.housed⟩⟩

theorem placeNew {made : Except Fault (Node Nat)}
    (below : ∀ node, made = .ok node → node.SlotsBelow (session.marks.size + 1)) (name : String) :
    (session.placeNew name true made).1.Loud := by
  cases made with
  | error fault => exact loud
  | ok node =>
      refine (loud.withSlots 1).place ?_ name
      simpa [Session.withSlots] using below node rfl

theorem makeRepeated (name item : String) (quantity : Int) :
    (session.makeRepeated name true item quantity).1.Loud := by
  unfold Session.makeRepeated
  split
  · exact loud
  · exact loud
  · next node count found _ =>
      have below := loud.slotsBelow_of_find found
      have heard : session.heard node.slot = true :=
        loud.heard _ (below node (self_mem_subtrees node))
      simp only [heard]
      refine (loud.withSlots _).placeNew (fun made same => ?_) name
      cases same
      refine slotsBelow_ofItems (Nat.lt_succ_self _) (List.forall_mem_cons.mpr ⟨?_, ?_⟩)
      · exact below.mono (by simp only [size_withSlots]; omega)
      · simp only [List.forall_mem_map, List.mem_range]
        intro index inBounds
        refine (below.mono ?_).inSlot ?_
        · simp only [size_withSlots]
          omega
        · simp only [size_withSlots, freshSlot]
          omega

/-- Followed nodes are made of followed nodes. -/
theorem make (name : String) (recipe : Recipe) : (session.make name true recipe).1.Loud := by
  -- A node that is made takes the first slot after those that are in use.
  have lt : session.marks.size < session.marks.size + 1 := Nat.lt_succ_self _
  have known : ∀ {name node}, session.find name = .ok node →
      node.SlotsBelow (session.marks.size + 1) :=
    fun found => (loud.slotsBelow_of_find found).mono (Nat.le_of_lt lt)
  cases recipe with
  | fudge | percentile =>
      refine loud.placeNew (fun node made => ?_) name
      cases made
      exact slotsBelow_die.mpr lt
  | sided | sidedText | custom | customText =>
      refine loud.placeNew (fun node made => ?_) name
      obtain ⟨d, -, rfl⟩ := except_map_eq_ok.mp made
      exact slotsBelow_die.mpr lt
  | pool items =>
      refine loud.placeNew (fun node made => ?_) name
      obtain ⟨found, each, rfl⟩ := except_map_eq_ok.mp made
      exact slotsBelow_ofItems lt fun item mem =>
        (loud.slotsBelow_of_findAll each item mem).mono (Nat.le_of_lt lt)
  | repeated item quantity => exact loud.makeRepeated name item quantity
  | arithmetic inner operator value =>
      refine loud.placeNew (fun node made => ?_) name
      obtain ⟨found, known', made⟩ := except_bind_eq_ok.mp made
      obtain ⟨operation, -, -, -, rfl⟩ := arithmetic?_eq_ok.mp made
      exact slotsBelow_arithmetic.mpr ⟨lt, known known'⟩
  | selection inner operator threshold =>
      refine loud.placeNew (fun node made => ?_) name
      obtain ⟨found, known', made⟩ := except_bind_eq_ok.mp made
      obtain ⟨s, poolSlot, items, -, rfl, -, -, -, rfl⟩ := selection?_eq_ok.mp made
      exact slotsBelow_selection.mpr ⟨lt, known known'⟩
  | explosion inner comparison threshold limit =>
      simp only [Session.make, makeExplosion]
      split
      · exact loud
      · next found known' =>
          refine (loud.record _).placeNew (fun node made => ?_) name
          obtain ⟨sign, -, -, -, rfl⟩ := explosion?_eq_ok.mp made
          exact slotsBelow_explosion.mpr ⟨lt, known known'⟩
  | expression text defaultFace limit =>
      simp only [Session.make, makeExpression]
      split
      · exact loud.record _
      · next node built =>
          obtain ⟨nonempty, below⟩ := slotsBelow_numbered session.freshSlot node
          refine ((loud.record _).withSlots _).place (below.mono ?_) name
          simp only [size_withSlots, record_marks, freshSlot] at nonempty ⊢
          omega

theorem extend (name pool : String) (items : List String) :
    (session.extend name pool items).1.Loud := by
  unfold Session.extend
  split
  · exact loud
  · next slot old found =>
      have below := loud.slotsBelow_of_find found
      have oldBelow := slotsBelow_pool.mp below
      rw [loud.heard slot oldBelow.1]
      refine loud.placeNew (fun node made => ?_) name
      obtain ⟨added, each, rfl⟩ := except_map_eq_ok.mp made
      unfold withItems
      split
      · exact below.mono (Nat.le_succ _)
      · refine slotsBelow_ofItems (Nat.lt_succ_self _) fun item mem => ?_
        rcases List.mem_append.mp mem with mem | mem
        · exact (oldBelow.2 item mem).mono (Nat.le_succ _)
        · exact (loud.slotsBelow_of_findAll each item (List.mem_of_mem_filter mem)).mono
            (Nat.le_succ _)
  · exact loud

/-- No request takes a node from those that are followed, if it is a loud one. -/
theorem step (draws : Draws) (request : Request) : (session.step draws request.loud).1.Loud := by
  cases request with
  | make name mark recipe => exact loud.make name recipe
  | extend name pool items => exact loud.extend name pool items
  | nameInner name node =>
      simp only [Request.loud, Session.step]
      refine withNode_cases (fun _ => loud) fun found known => ?_
      split
      · next inner same =>
          have below := (loud.slotsBelow_of_find known).of_mem (inner?_mem_subtrees same)
          exact loud.place below name
      · exact loud
  | nameChild name node index =>
      simp only [Request.loud, Session.step]
      refine withNode_cases (fun _ => loud) fun found known => ?_
      split
      · next item same =>
          have below := (loud.slotsBelow_of_find known).of_mem (child_mem_subtrees same)
          exact loud.place below name
      · exact loud
  | ask node measure =>
      simp only [Request.loud, Session.step]
      exact withNode_cases (fun _ => loud) fun _ _ => ⟨loud.heard, loud.housed⟩
  | follow node mark =>
      simp only [Request.loud, Session.step]
      refine withNode_cases (fun _ => loud) fun found _ =>
        ⟨fun slot inBounds => ?_, fun named mem => ?_⟩
      · rw [Array.size_setIfInBounds] at inBounds
        have before := loud.heard slot inBounds
        by_cases same : found.slot = slot
        · simp [Session.heard, same, inBounds]
        · simpa [Session.heard, Array.getElem?_setIfInBounds_ne same] using before
      · rw [Array.size_setIfInBounds]
        exact loud.housed named mem
  | reports => exact loud
  | reportCount => exact loud
  | clear => exact ⟨loud.heard, loud.housed⟩
  | _ =>
      simp only [Request.loud, Session.step]
      exact withNode_cases (fun _ => loud) fun _ _ => loud

end Loud

end Session

end DicePool
