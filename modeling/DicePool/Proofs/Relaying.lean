/-
Module: DicePool.Proofs.Relaying
Purpose: Building and asking in the order of time, with a listener that is told of each step.
Main exports: Node.Tolerated, Workshop.relayBuild, Relays, Workshop.relays_build, Node.askAll,
  Node.run_askAll, Workshop.serve, Workshop.serve_of_build
-/
import DicePool.Proofs.Canonical
import DicePool.Proofs.Following

/-!
`Workshop.build` remembers the questions that are asked on the way to a node, and answers them
together with it.  Here a text is built in the order of time: a step is gone as soon as a listener
was told of it, and a listener that refuses a step ends the work.

Both come to the same where the listener refuses nothing that is in the finished node.  All
questions on the way are about the insides of explosions, and these stay in the tree up to the
end (`Node.Tolerated`), whereas pools are poured together.  So if a text is built, the listener is
told of exactly the steps that are remembered, each once and in their order:
`Workshop.relays_build`, and with the questions to the finished node `Workshop.serve_of_build`.
-/

namespace DicePool

variable {σ : Type}

/-! ### Steps that are tolerated -/

namespace Node

/-- The listener accepts all steps of the tree, but for those of pools that are in nothing else. -/
def Tolerated (hear : Listener σ Unit) (node : Node Unit) : Prop :=
  ∀ sub ∈ node.subtrees, sub.isPool = false → ∀ deeper ∈ sub.subtrees, deeper.AcceptedBy hear

section

variable {hear : Listener σ Unit} {node : Node Unit}

theorem tolerated_of_accepted (accepted : ∀ sub ∈ node.subtrees, sub.AcceptedBy hear) :
    node.Tolerated hear :=
  fun _ mem _ _ deeperMem => accepted _ (subtrees_subset mem deeperMem)

theorem Tolerated.of_subset {other : Node Unit} (tolerated : other.Tolerated hear)
    (subset : node.subtrees ⊆ other.subtrees) : node.Tolerated hear :=
  fun sub mem => tolerated sub (subset mem)

theorem mem_subtrees_of_poured {sub : Node Unit} (mem : sub ∈ node.subtrees)
    (noPool : sub.isPool = false) : ∃ item ∈ node.poured, sub ∈ item.subtrees := by
  cases sort : node.isPool with
  | false => exact ⟨node, by simp [poured_of_not_isPool sort], mem⟩
  | true =>
      obtain ⟨items, rfl⟩ := exists_of_isPool sort
      rcases List.mem_cons.mp mem with rfl | inside
      · contradiction
      · simpa [poured] using inside

theorem Tolerated.of_flatten (tolerated : node.flatten.Tolerated hear) : node.Tolerated hear := by
  unfold flatten at tolerated
  split at tolerated
  · next slot item =>
      intro sub mem noPool
      obtain ⟨_, itemMem, inItem⟩ := mem_subtrees_of_poured mem noPool
      obtain rfl := List.mem_singleton.mp itemMem
      exact tolerated sub inItem noPool
  · exact tolerated

/-- What is poured together stays tolerated. -/
theorem tolerated_of_gather {parts : List (Node Unit)}
    (tolerated : (Workshop.gather parts).Tolerated hear) : ∀ part ∈ parts, part.Tolerated hear := by
  intro part partMem sub mem noPool
  obtain ⟨item, itemMem, inItem⟩ := mem_subtrees_of_poured mem noPool
  refine tolerated.of_flatten sub (List.mem_cons_of_mem _ ?_) noPool
  rw [inside_pool]
  exact List.mem_flatMap.mpr ⟨item, List.mem_flatMap.mpr ⟨part, partMem, itemMem⟩, inItem⟩

end

theorem still_explosion? (hear : Listener σ Unit) (comparison : Text) (threshold limit : Int)
    (inner : Node Unit) : Still (explosion? hear () comparison threshold limit inner) := by
  have bounds : ∀ leaf : Node Unit, Still (leaf.askBounds hear) := fun leaf =>
    (still_askBound hear leaf .lowest).bind fun _ =>
      (still_askBound hear leaf .highest).bind fun _ => .pure _
  unfold explosion?
  split
  · exact .answer _
  split
  · exact .answer _
  split
  · exact .answer _
  refine Still.bind (Still.each ?_) fun found => ?_
  · intro evaluation mem
    obtain ⟨leaf, -, rfl⟩ := List.mem_map.mp mem
    exact bounds leaf
  · split
    · exact .answer _
    · exact .pure _

end Node

/-! ### Texts -/

namespace Workshop

section

variable (shop : Workshop) (hear : Listener σ Unit)

/-- Applies one modifier, and tells the listener of each question at once. -/
def relayModify (node : Node Unit) (modifier : Modifier) : Evaluation σ (Node Unit) :=
  match modifier.kind with
  | .arithmetic => .answer (node.arithmetic? () modifier.operator modifier.value)
  | .dropKeep => .answer (node.selection? () modifier.operator modifier.value)
  | .explode => node.explosion? hear () modifier.operator modifier.value shop.limit

/-- Applies modifiers one after the other. -/
def relayModifyAll (node : Node Unit) : List Modifier → Evaluation σ (Node Unit)
  | [] => pure node
  | modifier :: rest => do
      let modified ← shop.relayModify hear node modifier
      relayModifyAll modified rest

mutual

/-- Builds one term, and tells the listener of each question at once. -/
def relayTerm : Term → Evaluation σ (Node Unit)
  | .dice type quantity modifiers => do
      let node ← .answer (dice type quantity).result
      let modified ← shop.relayModifyAll hear node modifiers
      return modified.flatten
  | .group terms modifiers => do
      let parts ← relayTerms terms
      let modified ← shop.relayModifyAll hear (gather parts) modifiers
      return modified.flatten

/-- Builds terms in order. -/
def relayTerms : List Term → Evaluation σ (List (Node Unit))
  | [] => pure []
  | first :: rest => do
      let node ← relayTerm first
      let nodes ← relayTerms rest
      return node :: nodes

end

/-- Builds the node of a text, and tells the listener of each question at once. -/
def relayBuild (text : Text) : Evaluation σ (Node Unit) := do
  let expression ← .answer (Expression.parse shop.defaultFace text)
  let parts ← shop.relayTerms hear expression
  .answer (finish (gather parts))

end

end Workshop

/-- At the beginning of the stream the evaluation comes to what the work comes to, and the listener
is told of the steps of the work. -/
def Relays {β : Type} (hear : Listener σ Unit) (evaluation : Evaluation σ β) (work : Assembly β) :
    Prop :=
  ∀ known, ∃ last, work.entries.foldlM hear known = .ok last ∧
    evaluation.run ⟨0, known⟩ = (work.result, ⟨0, last⟩)

namespace Relays

variable {β γ : Type} {hear : Listener σ Unit}

theorem pure (value : β) : Relays hear (Pure.pure value) (Pure.pure value) :=
  fun known => ⟨known, rfl, rfl⟩

theorem answer (result : Except Fault β) :
    Relays hear (Evaluation.answer result) (Assembly.ofExcept result) :=
  fun known => ⟨known, rfl, rfl⟩

/-- What is told first is heard first. -/
theorem bind {evaluation : Evaluation σ β} {later : β → Evaluation σ γ} {work : Assembly β}
    {next : β → Assembly γ} {value : β} (found : work.result = .ok value)
    (first : Relays hear evaluation work) (second : Relays hear (later value) (next value)) :
    Relays hear (evaluation >>= later) (work >>= next) := by
  obtain ⟨entries, _⟩ := work
  cases found
  intro known
  obtain ⟨between, told, ran⟩ := first known
  obtain ⟨last, toldLater, ranLater⟩ := second between
  refine ⟨last, ?_, ?_⟩
  · change (entries ++ (next value).entries).foldlM hear known = .ok last
    rw [List.foldlM_append, told]
    exact toldLater
  · rw [Evaluation.run_bind_of_ok ran, ranLater]
    rfl

end Relays

namespace Workshop

open Node

variable {shop : Workshop} {hear : Listener σ Unit}

/-- Dice are no questions. -/
theorem entries_dice (type : Text) (quantity : Int) : (dice type quantity).entries = [] := by
  unfold dice pool
  cases Die.read type <;> cases checkQuantity quantity <;> rfl

/-- A modified node has all nodes in it that it had before. -/
theorem subtrees_subset_of_modify {node modified : Node Unit} {modifier : Modifier}
    (made : (shop.modify node modifier).result = .ok modified) :
    node.subtrees ⊆ modified.subtrees := by
  obtain ⟨kind, operator, value⟩ := modifier
  cases kind with
  | arithmetic =>
      obtain ⟨operation, -, -, -, rfl⟩ := arithmetic?_eq_ok.mp made
      exact fun sub mem => List.mem_cons_of_mem _ (by simpa using mem)
  | dropKeep =>
      obtain ⟨s, poolSlot, items, -, rfl, -, -, -, rfl⟩ := selection?_eq_ok.mp made
      exact fun sub mem => List.mem_cons_of_mem _ (by rwa [inside_selection])
  | explode =>
      obtain ⟨sign, -, -, -, rfl⟩ := explosion?_eq_ok.mp made
      exact fun sub mem => List.mem_cons_of_mem _ (by simpa using mem)

theorem subtrees_subset_of_modifyAll {node modified : Node Unit} {modifiers : List Modifier}
    (made : (shop.modifyAll node modifiers).result = .ok modified) :
    node.subtrees ⊆ modified.subtrees := by
  induction modifiers generalizing node with
  | nil =>
      cases made
      exact List.Subset.refl _
  | cons modifier rest ih =>
      obtain ⟨between, first, others⟩ := Assembly.result_bind_eq_ok.mp made
      exact List.Subset.trans (subtrees_subset_of_modify first) (ih others)

/-- The questions for an explosion are about its own tree. -/
theorem relays_modify {node modified : Node Unit} {modifier : Modifier}
    (made : ((shop.marking true).modify node modifier).result = .ok modified)
    (tolerated : modified.Tolerated hear) :
    Relays hear (shop.relayModify hear node modifier)
      ((shop.marking true).modify node modifier) := by
  obtain ⟨kind, operator, value⟩ := modifier
  cases kind with
  | arithmetic => exact .answer _
  | dropKeep => exact .answer _
  | explode =>
      obtain ⟨sign, -, -, -, rfl⟩ := explosion?_eq_ok.mp made
      have accepted : ∀ sub ∈ node.subtrees, sub.AcceptedBy hear := fun sub mem =>
        tolerated _ (self_mem_subtrees _) rfl sub (List.mem_cons_of_mem _ (by simpa using mem))
      intro known
      obtain ⟨last, told, ran⟩ := run_of_toldOf (explosion?_matches node
        (fun sub mem => (accepted sub mem).hearAlike known) () operator value shop.limit) 0
      refine ⟨last, told, ran.trans ?_⟩
      -- No draws are read on the way.
      obtain ⟨result, all, still⟩ :=
        still_explosion? (.memory everySlot) operator value shop.limit node #[]
      rw [Evaluation.remembered, still]
      simp only [modify, marking, Assembly.ofEvaluation, Evaluation.remembered]
      exact congrArg (fun outcome => (outcome.1, (⟨0, last⟩ : Standing σ))) (still 0).symm

theorem relays_modifyAll {node modified : Node Unit} {modifiers : List Modifier}
    (made : ((shop.marking true).modifyAll node modifiers).result = .ok modified)
    (tolerated : modified.Tolerated hear) :
    Relays hear (shop.relayModifyAll hear node modifiers)
      ((shop.marking true).modifyAll node modifiers) := by
  induction modifiers generalizing node with
  | nil => exact .pure node
  | cons modifier rest ih =>
      obtain ⟨between, first, others⟩ := Assembly.result_bind_eq_ok.mp made
      have before := tolerated.of_subset (subtrees_subset_of_modifyAll others)
      exact (relays_modify first before).bind first (ih others)

theorem relays_dice (type : Text) (quantity : Int) :
    Relays hear (.answer (dice type quantity).result) (dice type quantity) := by
  intro known
  rw [entries_dice]
  exact ⟨known, rfl, rfl⟩

mutual

theorem relays_term : ∀ (term : Term) {node : Node Unit},
    ((shop.marking true).term term).result = .ok node → node.Tolerated hear →
      Relays hear (shop.relayTerm hear term) ((shop.marking true).term term)
  | .dice type quantity modifiers, node, made, tolerated => by
      obtain ⟨pool, diced, made⟩ := Assembly.result_bind_eq_ok.mp made
      obtain ⟨modified, all, made⟩ := Assembly.result_bind_eq_ok.mp made
      cases made
      exact (relays_dice type quantity).bind diced
        ((relays_modifyAll all tolerated.of_flatten).bind all (.pure _))
  | .group terms modifiers, node, made, tolerated => by
      obtain ⟨parts, termed, made⟩ := Assembly.result_bind_eq_ok.mp made
      obtain ⟨modified, all, made⟩ := Assembly.result_bind_eq_ok.mp made
      cases made
      have gathered := tolerated.of_flatten.of_subset (subtrees_subset_of_modifyAll all)
      exact (relays_terms terms termed (tolerated_of_gather gathered)).bind termed
        ((relays_modifyAll all tolerated.of_flatten).bind all (.pure _))

theorem relays_terms : ∀ (expression : List Term) {nodes : List (Node Unit)},
    ((shop.marking true).terms expression).result = .ok nodes →
      (∀ node ∈ nodes, node.Tolerated hear) →
      Relays hear (shop.relayTerms hear expression) ((shop.marking true).terms expression)
  | [], _, _, _ => .pure []
  | first :: rest, nodes, made, tolerated => by
      obtain ⟨node, termed, made⟩ := Assembly.result_bind_eq_ok.mp made
      obtain ⟨others, termedOthers, made⟩ := Assembly.result_bind_eq_ok.mp made
      cases made
      obtain ⟨own, each⟩ := List.forall_mem_cons.mp tolerated
      exact (relays_term first termed own).bind termed
        ((relays_terms rest termedOthers each).bind termedOthers (.pure _))

end

/-- The questions that are asked while a text is built are told as they come up. -/
theorem relays_build {text : Text} {node : Node Unit}
    (built : ((shop.marking true).build text).result = .ok node)
    (accepted : ∀ sub ∈ node.subtrees, sub.AcceptedBy hear) :
    Relays hear (shop.relayBuild hear text) ((shop.marking true).build text) := by
  obtain ⟨expression, parsed, assembled, writable⟩ := (shop.marking true).build_eq_ok.mp built
  obtain ⟨parts, termed, made⟩ := Assembly.result_bind_eq_ok.mp assembled
  cases made
  have terms := relays_terms expression termed
    (tolerated_of_gather (tolerated_of_accepted accepted))
  have whole : (shop.marking true).build text
      = Assembly.ofExcept (Expression.parse shop.defaultFace text) >>= fun expression =>
          (shop.marking true).terms expression >>= fun parts =>
            Assembly.ofExcept (finish (gather parts)) := by
    simp [build, assemble, marking]
  rw [whole]
  exact (Relays.answer _).bind parsed (terms.bind termed (.answer _))

end Workshop

/-! ### Questions -/

namespace Node

/-- Asks the node for some measures, one after the other, also where one of them fails. -/
def askAll (hear : Listener σ Unit) (draws : Draws) (node : Node Unit) :
    List Measure → Standing σ → List (Except Fault Int) × Standing σ
  | [], standing => ([], standing)
  | measure :: rest, standing =>
      let (first, between) := (node.ask hear draws measure).run standing
      let (others, last) := askAll hear draws node rest between
      (first :: others, last)

/-- Questions in a row are told of step by step as they are answered. -/
theorem run_askAll {hear : Listener σ Unit} (draws : Draws) {node : Node Unit}
    (accepted : ∀ sub ∈ node.subtrees, sub.AcceptedBy hear) (measures : List Measure)
    (position : Nat) (known : σ) :
    let asked := node.replyAll everySlot draws measures position
    ∃ last, asked.entries.foldlM hear known = .ok last ∧
      node.askAll hear draws measures ⟨position, known⟩ = (asked.results, ⟨asked.next, last⟩) := by
  induction measures generalizing position known with
  | nil => exact ⟨known, rfl, rfl⟩
  | cons measure rest ih =>
      obtain ⟨between, told, ran⟩ := run_ask_of_accepted draws accepted measure position known
      obtain ⟨last, toldLater, ranLater⟩ :=
        ih (node.reply everySlot draws measure position).next between
      refine ⟨last, ?_, ?_⟩
      · simp only [replyAll, List.foldlM_append, told]
        exact toldLater
      · simp only [askAll, ran, ranLater, replyAll]

end Node

namespace Workshop

open Node

variable (shop : Workshop)

/-- Builds the text and asks its node for some measures, from the beginning of the stream on: what
comes out, and what the listener has made of the steps. -/
def serve (hear : Listener σ Unit) (draws : Draws) (text : Text) (measures : List Measure)
    (known : σ) : Except Fault (List (Except Fault Int)) × σ :=
  match (shop.relayBuild hear text).run ⟨0, known⟩ with
  | (.error fault, standing) => (.error fault, standing.known)
  | (.ok node, standing) =>
      let (results, last) := node.askAll hear draws measures standing
      (.ok results, last.known)

variable {shop}

/-- A listener that refuses no step of the node that the text is built into is told of all steps,
first of those of the building and then of those of the questions, and the answers are those of
the node. -/
theorem serve_of_build {hear : Listener σ Unit} {text : Text} {node : Node Unit}
    (built : (shop.build text).result = .ok node)
    (accepted : ∀ sub ∈ node.subtrees, sub.AcceptedBy hear) (draws : Draws)
    (measures : List Measure) (known : σ) :
    let asked := node.replyAll everySlot draws measures 0
    let steps := ((shop.marking true).build text).entries ++ asked.entries
    ∃ last, steps.foldlM hear known = .ok last ∧
      shop.serve hear draws text measures known = (.ok asked.results, last) := by
  have same : ((shop.marking true).build text).result = .ok node :=
    (shop.result_build_marking true shop.heard text).trans built
  obtain ⟨between, told, ran⟩ := relays_build same accepted known
  obtain ⟨last, toldLater, ranLater⟩ := run_askAll draws accepted measures 0 between
  refine ⟨last, ?_, ?_⟩
  · rw [List.foldlM_append, told]
    exact toldLater
  · rw [serve, ran, same]
    simp only [ranLater]

end Workshop

end DicePool
