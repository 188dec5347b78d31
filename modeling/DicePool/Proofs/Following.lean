/-
Module: DicePool.Proofs.Following
Purpose: What is heard of a question, and of the questions on the way to a node.
Main exports: Node.reply_eq_of_followed, Node.replyAll_eq_of_followed, Node.explosion?_matches,
  Node.explosion?_eq_restrict, Assembly.restrict, Workshop.build_eq_restrict
-/
import DicePool.Assembly
import DicePool.Proofs.Bounds
import DicePool.Proofs.Completing

/-!
Whoever listens hears of a question the steps of those nodes that are followed, and all of its
steps where the whole tree is followed (`Node.reply_eq_of_followed`).

The same is true of the questions that are asked while a node is put together, where they may
end in a refusal: `Node.explosion?_eq_restrict`, and for whole texts `Workshop.build_eq_restrict`.
-/

namespace DicePool

/-- The outcomes with only the steps that are heard. -/
def Outcomes.restrict {α : Type} (heard : α → Bool) (outcomes : Outcomes α) : Outcomes α :=
  { outcomes with entries := heardOf heard outcomes.entries }

namespace Node

variable {σ τ α : Type}

/-- All slots of the tree are heard. -/
def Followed (heard : α → Bool) (node : Node α) : Prop :=
  ∀ sub ∈ node.subtrees, heard sub.slot = true

/-- Of a tree that is followed all steps are heard. -/
theorem reply_eq_of_followed {heard : α → Bool} {node : Node α} (followed : node.Followed heard)
    (draws : Draws) (measure : Measure) (position : Nat) :
    node.reply heard draws measure position = node.reply everySlot draws measure position := by
  have whole : heardOf heard (node.reply everySlot draws measure position).entries
      = (node.reply everySlot draws measure position).entries :=
    List.filter_eq_self.mpr fun _ mem => followed _ (node_mem_subtrees_of_mem_reply mem)
  rw [reply_eq_restrict, Outcome.restrict, whole]

/-- Questions in a row with some slots heard are those with all of them heard, with the other
steps left out. -/
theorem replyAll_eq_restrict (heard : α → Bool) (draws : Draws) (node : Node α)
    (measures : List Measure) (position : Nat) :
    node.replyAll heard draws measures position
      = (node.replyAll everySlot draws measures position).restrict heard := by
  induction measures generalizing position with
  | nil => rfl
  | cons measure rest ih =>
      simp only [replyAll, reply_eq_restrict heard, Outcome.restrict, ih, Outcomes.restrict,
        heardOf_append]

theorem replyAll_eq_of_followed {heard : α → Bool} {node : Node α} (followed : node.Followed heard)
    (draws : Draws) (measures : List Measure) (position : Nat) :
    node.replyAll heard draws measures position
      = node.replyAll everySlot draws measures position := by
  induction measures generalizing position with
  | nil => rfl
  | cons measure rest ih => simp only [replyAll, reply_eq_of_followed followed, ih]

/-! ### Questions on the way to an explosion -/

section

variable {related : σ → τ → Prop} {hear : Listener σ α} {hear' : Listener τ α}

/-- An explosion is made or refused alike by listeners that hear each step of the tree alike. -/
theorem explosion?_matches (inner : Node α)
    (alike : ∀ sub ∈ inner.subtrees, sub.HearAlike related hear hear' id) (slot : α)
    (comparison : Text) (threshold limit : Int) :
    Matches related (explosion? hear slot comparison threshold limit inner)
      (explosion? hear' slot comparison threshold limit inner) := by
  have bounds : ∀ leaf ∈ inner.leaves,
      Matches related (leaf.askBounds hear) (leaf.askBounds hear') := by
    intro leaf mem
    have below : ∀ sub ∈ leaf.subtrees, sub.HearAlike related hear hear' id :=
      fun sub subMem => alike sub (subtrees_subset (inner.leaves_subset mem) subMem)
    have each := askBound_matches below
    rw [map_id] at each
    exact (each .lowest).bind fun _ => (each .highest).bind fun _ => .pure _
  unfold explosion?
  split
  · exact .answer _
  split
  · exact .answer _
  split
  · exact .answer _
  refine Matches.bind (Matches.each ?_) fun found => ?_
  · rw [List.forall₂_map_left_iff, List.forall₂_map_right_iff, List.forall₂_same]
    exact bounds
  · split
    · exact .answer _
    · exact .pure _

end

/-- Whether an explosion is refused does not depend on who listens. -/
theorem explosion?_eq_restrict (heard : α → Bool) (slot : α) (comparison : Text)
    (threshold limit : Int) (inner : Node α) (position : Nat) :
    (explosion? (.memory heard) slot comparison threshold limit inner).remembered position
      = ((explosion? (.memory everySlot) slot comparison threshold limit inner).remembered
          position).restrict heard := by
  have same := explosion?_matches inner (fun sub _ => hearAlike_memory id heard sub)
    slot comparison threshold limit
  rw [← Outcome.inSlots_id, same.remembered]

/-- The questions on the way to an explosion are about the tree that is exploded. -/
theorem node_mem_subtrees_of_mem_explosion? {slot : α} {comparison : Text} {threshold limit : Int}
    {inner : Node α} {position : Nat} {entry : Entry α}
    (mem : entry ∈ ((explosion? (.memory everySlot) slot comparison threshold limit
      inner).remembered position).entries) : entry.node ∈ inner.subtrees :=
  node_mem_subtrees_of_matches
    (explosion?_matches inner (fun _ => hearAlike_inTree) slot comparison threshold limit) mem

end Node

/-! ### Texts -/

/-- The work with only the steps that are heard. -/
def Assembly.restrict {β : Type} (heard : Unit → Bool) (work : Assembly β) : Assembly β :=
  { work with entries := heardOf heard work.entries }

namespace Assembly

variable {β γ : Type} (heard : Unit → Bool)

@[simp] theorem restrict_pure (value : β) :
    (pure value : Assembly β).restrict heard = pure value := rfl

@[simp] theorem restrict_ofExcept (result : Except Fault β) :
    (ofExcept result).restrict heard = ofExcept result := rfl

/-- Steps that are heard in part one by one are so in a row. -/
theorem restrict_bind (work : Assembly β) (next : β → Assembly γ) :
    (work >>= next).restrict heard
      = work.restrict heard >>= fun value => (next value).restrict heard := by
  rcases work with ⟨entries, _ | value⟩ <;> simp [bind, andThen, restrict]

end Assembly

namespace Workshop

variable (shop : Workshop)

/-- The workshop that builds the same nodes and marks them differently. -/
def marking (mark : Bool) : Workshop :=
  { shop with heard := mark }

variable (mark : Bool)

theorem modify_eq_restrict (node : Node Unit) (modifier : Modifier) :
    (shop.marking mark).modify node modifier
      = ((shop.marking true).modify node modifier).restrict fun _ => mark := by
  obtain ⟨kind, operator, value⟩ := modifier
  cases kind with
  | arithmetic => rfl
  | dropKeep => rfl
  | explode =>
      simp only [modify, marking, Assembly.ofEvaluation, Node.explosion?_eq_restrict fun _ => mark]
      rfl

theorem modifyAll_eq_restrict (node : Node Unit) (modifiers : List Modifier) :
    (shop.marking mark).modifyAll node modifiers
      = ((shop.marking true).modifyAll node modifiers).restrict fun _ => mark := by
  induction modifiers generalizing node with
  | nil => rfl
  | cons modifier rest ih =>
      simp only [modifyAll, Assembly.restrict_bind, modify_eq_restrict shop mark, ih]

theorem dice_restrict (type : Text) (quantity : Int) (heard : Unit → Bool) :
    (dice type quantity).restrict heard = dice type quantity := by
  simp only [dice, pool, Assembly.restrict_bind, Assembly.restrict_ofExcept, Assembly.restrict_pure]

mutual

theorem term_eq_restrict : ∀ term : Term,
    (shop.marking mark).term term = ((shop.marking true).term term).restrict fun _ => mark
  | .dice type quantity modifiers => by
      simp only [term, Assembly.restrict_bind, dice_restrict, modifyAll_eq_restrict shop mark,
        Assembly.restrict_pure]
  | .group terms modifiers => by
      simp only [term, Assembly.restrict_bind, terms_eq_restrict terms,
        modifyAll_eq_restrict shop mark, Assembly.restrict_pure]

theorem terms_eq_restrict : ∀ expression : List Term,
    (shop.marking mark).terms expression
      = ((shop.marking true).terms expression).restrict fun _ => mark
  | [] => rfl
  | first :: rest => by
      simp only [terms, Assembly.restrict_bind, term_eq_restrict first, terms_eq_restrict rest,
        Assembly.restrict_pure]

end

/-- What is built from a text does not depend on who listens, and of the questions on the way
all or none are heard. -/
theorem build_eq_restrict (text : Text) :
    (shop.marking mark).build text
      = ((shop.marking true).build text).restrict fun _ => mark := by
  simp only [build, assemble, Assembly.restrict_bind, Assembly.restrict_ofExcept,
    terms_eq_restrict shop mark, Assembly.restrict_pure]
  rfl

/-- The node of a text is the same, whoever listens. -/
theorem result_build_marking (other : Bool) (text : Text) :
    ((shop.marking mark).build text).result = ((shop.marking other).build text).result := by
  rw [build_eq_restrict shop mark, build_eq_restrict shop other, Assembly.restrict,
    Assembly.restrict]

end Workshop

end DicePool
