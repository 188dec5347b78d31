/-
Module: DicePool.Proofs.Collecting
Purpose: A built tree holds the dice that its text names, one for one and in order.
Main exports: Node.dice, Term.named, Expands, Node.Assembled.leaves_eq_poured,
  Workshop.expands_of_term, Workshop.expands_and_leaves_of_build
-/
import DicePool.Proofs.Canonical

/-!
On the way from a text to a tree dice are multiplied, poured from pool to pool, and put
under modifiers.  The dice of a node, read from left to right (`Node.dice`), are what none
of these steps changes, so that in the end they are the dice that the terms name
(`Term.named`), each as often as its number says: `Expands`.

What an explosion rolls are the leaves of its inner node.  In a built tree no leaf lies
deeper than among the items of that node, or is the node itself.
-/

namespace DicePool

/-! ### The dice of a node -/

namespace Node

variable {α : Type}

mutual

/-- The dice of the node from left to right. -/
def dice : Node α → List Die
  | die _ d => [d]
  | pool _ items => diceEach items
  | arithmetic _ _ _ inner => dice inner
  | selection _ _ _ _ items => diceEach items
  | explosion _ _ inner => dice inner

/-- The dice of several nodes, one node after the other. -/
def diceEach : List (Node α) → List Die
  | [] => []
  | node :: rest => dice node ++ diceEach rest

end

@[simp] theorem diceEach_eq_flatMap (items : List (Node α)) :
    diceEach items = items.flatMap dice := by
  induction items with
  | nil => rfl
  | cons node rest ih => rw [diceEach, ih, List.flatMap_cons]

@[simp] theorem dice_pool (slot : α) (items : List (Node α)) :
    (pool slot items).dice = items.flatMap dice := by
  rw [dice, diceEach_eq_flatMap]

/-- A pool is poured into another one with all its dice. -/
@[simp] theorem flatMap_dice_poured (node : Node α) : node.poured.flatMap dice = node.dice := by
  cases node <;> simp [poured]

@[simp] theorem dice_flatten (node : Node α) : node.flatten.dice = node.dice := by
  refine flatten_eq_of_pool_one (fun slot item => ?_) node
  simp

theorem leaves_of_not_isPool {node : Node α} (noPool : node.isPool = false) :
    node.leaves = [node] := by
  cases node with
  | pool slot items => simp [isPool] at noPool
  | _ => simp [leaves]

/-- The leaves of an assembled node are the items of a pool, or the node itself. -/
theorem Assembled.leaves_eq_poured {limit : Int} {node : Node Unit}
    (built : node.Assembled limit) : node.leaves = node.poured := by
  cases sort : node.isPool with
  | false => rw [leaves_of_not_isPool sort, poured_of_not_isPool sort]
  | true =>
      obtain ⟨items, rfl⟩ := exists_of_isPool sort
      cases built with
      | pool _ noPool _ =>
          have single : ∀ item ∈ items, item.leaves = [item] :=
            fun item mem => leaves_of_not_isPool (noPool item mem)
          rw [leaves_pool, List.flatMap_congr single, Node.poured, List.flatMap_singleton']

end Node

/-! ### The dice that terms name -/

namespace Term

mutual

/-- The types of dice that the term names, each with its number, as they are written. -/
def named : Term → List (Text × Int)
  | dice type quantity _ => [(type, quantity)]
  | group terms _ => namedEach terms

/-- What several terms name, one term after the other. -/
def namedEach : List Term → List (Text × Int)
  | [] => []
  | term :: rest => named term ++ namedEach rest

end

end Term

/-- The dice are those that are named, each as often as its number says. -/
inductive Expands : List (Text × Int) → List Die → Prop where
  | nil : Expands [] []
  | cons {type : Text} {d : Die} {count : Nat} {named : List (Text × Int)} {dice : List Die}
      (read : Die.read type = .ok d) (positive : 1 ≤ count) (rest : Expands named dice) :
      Expands ((type, count) :: named) (List.replicate count d ++ dice)

theorem Expands.append {named later : List (Text × Int)} {dice others : List Die}
    (first : Expands named dice) (second : Expands later others) :
    Expands (named ++ later) (dice ++ others) := by
  induction first with
  | nil => exact second
  | cons read positive _ ih =>
      rw [List.append_assoc]
      exact .cons read positive ih

namespace Workshop

open Node

variable (shop : Workshop)

/-- What finished terms make together has the dice of them all. -/
theorem dice_gather (parts : List (Node Unit)) :
    (gather parts).dice = parts.flatMap Node.dice := by
  rw [gather, dice_flatten, dice_pool, List.flatMap_assoc]
  exact List.flatMap_congr fun part _ => flatMap_dice_poured part

/-- The dice of a type are so many dice that are read from it. -/
theorem expands_of_dice {type : Text} {quantity : Int} {node : Node Unit}
    (made : (Workshop.dice type quantity).result = .ok node) :
    Expands [(type, quantity)] node.dice := by
  obtain ⟨d, count, read, positive, rfl, rfl⟩ := dice_eq_ok.mp made
  have expands : Expands [(type, (count : Int))] (List.replicate count d ++ []) :=
    .cons read positive .nil
  simpa [Node.dice, List.flatMap_replicate] using expands

/-- A modifier is put on top of the dice. -/
theorem dice_of_modify {node modified : Node Unit} {modifier : Modifier}
    (made : (shop.modify node modifier).result = .ok modified) : modified.dice = node.dice := by
  obtain ⟨kind, operator, value⟩ := modifier
  cases kind with
  | arithmetic =>
      obtain ⟨operation, -, -, -, rfl⟩ := arithmetic?_eq_ok.mp made
      rw [Node.dice]
  | dropKeep =>
      obtain ⟨s, slot, items, -, rfl, -, -, -, rfl⟩ := selection?_eq_ok.mp made
      rw [Node.dice, Node.dice]
  | explode =>
      obtain ⟨comparison, -, -, -, rfl⟩ := explosion?_eq_ok.mp made
      rw [Node.dice]

theorem dice_of_modifyAll {modifiers : List Modifier} {node modified : Node Unit}
    (made : (shop.modifyAll node modifiers).result = .ok modified) :
    modified.dice = node.dice := by
  induction modifiers generalizing node with
  | nil =>
      cases made
      rfl
  | cons modifier rest ih =>
      obtain ⟨between, first, others⟩ := Assembly.result_bind_eq_ok.mp made
      rw [ih others, shop.dice_of_modify first]

mutual

/-- A term is built into a node with the dice that it names. -/
theorem expands_of_term : ∀ (term : Term) {node : Node Unit},
    (shop.term term).result = .ok node → Expands term.named node.dice
  | .dice type quantity modifiers, node, made => by
      obtain ⟨pool, diced, made⟩ := Assembly.result_bind_eq_ok.mp made
      obtain ⟨modified, all, made⟩ := Assembly.result_bind_eq_ok.mp made
      cases made
      rw [dice_flatten, shop.dice_of_modifyAll all, Term.named]
      exact expands_of_dice diced
  | .group terms modifiers, node, made => by
      obtain ⟨parts, termed, made⟩ := Assembly.result_bind_eq_ok.mp made
      obtain ⟨modified, all, made⟩ := Assembly.result_bind_eq_ok.mp made
      cases made
      rw [dice_flatten, shop.dice_of_modifyAll all, dice_gather, Term.named]
      exact expands_of_terms terms termed

theorem expands_of_terms : ∀ (terms : List Term) {nodes : List (Node Unit)},
    (shop.terms terms).result = .ok nodes →
      Expands (Term.namedEach terms) (nodes.flatMap Node.dice)
  | [], nodes, made => by
      cases made
      exact .nil
  | term :: rest, nodes, made => by
      obtain ⟨first, termed, made⟩ := Assembly.result_bind_eq_ok.mp made
      obtain ⟨others, termedOthers, made⟩ := Assembly.result_bind_eq_ok.mp made
      cases made
      rw [List.flatMap_cons, Term.namedEach]
      exact (expands_of_term term termed).append (expands_of_terms rest termedOthers)

end

/-- No die is lost, doubled or moved.  The dice of a built tree, from left to right, are those
that the terms of its text name, each as often as its number says.  What an explosion in it
rolls are the items of its inner pool, or the inner node itself where that is no pool, one
after the other. -/
theorem expands_and_leaves_of_build {shop : Workshop} {s : Text} {node : Node Unit}
    (built : (shop.build s).result = .ok node) :
    (∃ terms, Expression.parse shop.defaultFace s = .ok terms ∧
      Expands (Term.namedEach terms) node.dice) ∧
    ∀ slot rule inner, explosion slot rule inner ∈ node.subtrees →
      inner.leaves = inner.poured ∧
      ∀ (σ : Type) (hear : Listener σ Unit) (draws : Draws),
        (explosion slot rule inner).askRoll hear draws = (do
          let values ← Evaluation.exploded rule (inner.poured.map (askRoll hear draws))
          Evaluation.tell hear (explosion slot rule inner) .roll (.sum values) (total values)) := by
  constructor
  · obtain ⟨terms, parsed, assembled, -⟩ := shop.build_eq_ok.mp built
    obtain ⟨nodes, termed, made⟩ := Assembly.result_bind_eq_ok.mp assembled
    cases made
    refine ⟨terms, parsed, ?_⟩
    rw [dice_gather]
    exact shop.expands_of_terms terms termed
  · intro slot rule inner mem
    have leaves : inner.leaves = inner.poured := by
      rcases shop.assembled_and_flat_of_build built with ⟨-, rfl⟩ | ⟨-, assembled, -⟩
      · simp [subtrees] at mem
      · cases assembled.of_mem_subtrees _ mem with
        | explosion _ _ built _ _ => exact built.leaves_eq_poured
    refine ⟨leaves, fun σ hear draws => ?_⟩
    rw [askRoll_explosion, leaves]

/-- The dice of `(2d4+(d+d[1,5]))!+df`, of which the first four are exploded one by one. -/
theorem expands_and_leaves_of_nested_dice :
    let shop : Workshop := ⟨some ['6'], 100, false⟩
    let s := ['(', '2', 'd', '4', '+', '(', 'd', '+', 'd', '[', '1', ',', '5', ']', ')', ')', '!',
      '+', 'd', 'f']
    let inner : Node Unit := .pool () [.die () (.sided 4), .die () (.sided 4),
      .die () (.sided 6), .die () (.custom [1, 5])]
    let node : Node Unit :=
      .pool () [.explosion () ⟨.equal, 1, 100⟩ inner, .die () .fudge]
    (shop.build s).result = .ok node ∧
      node.dice = [.sided 4, .sided 4, .sided 6, .custom [1, 5], .fudge] ∧
      (∃ terms, Expression.parse shop.defaultFace s = .ok terms ∧
        Expands (Term.namedEach terms) node.dice) ∧
      explosion () ⟨.equal, 1, 100⟩ inner ∈ node.subtrees ∧ inner.leaves = inner.poured := by
  intro shop s inner node
  have built : (shop.build s).result = .ok node :=
    shop.build_eq_ok.mpr ⟨_, rfl, rfl, by decide⟩
  have mem : explosion () ⟨.equal, 1, 100⟩ inner ∈ node.subtrees := by
    simp [node, subtrees]
  obtain ⟨expands, leaves⟩ := expands_and_leaves_of_build built
  exact ⟨built, rfl, expands, mem, (leaves _ _ _ mem).1⟩

end Workshop

end DicePool
