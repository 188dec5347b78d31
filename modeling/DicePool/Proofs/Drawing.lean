/-
Module: DicePool.Proofs.Drawing
Purpose: How many draws a roll takes, and which dice take them.
Main exports: Node.fewestDraws, Node.mostDraws, Node.next_between, Node.dieNodes, Thrown,
  Node.exists_thrown, Node.roll_finishes_within_draws
-/
import DicePool.Proofs.Constructing
import DicePool.Proofs.Looping
import DicePool.Proofs.Serving

/-!
Only dice read from the stream.  How many draws a roll takes is therefore a matter of how often
the dice are rolled, and that is bounded by the tree: once each without explosions, and under
an explosion as often as its limit allows (`Node.next_between`).

The steps of a roll show which die took which draw.  The throws among them are one for each
draw, in the order of the stream (`Thrown`), and without explosions they are those of the dice
of the tree from left to right.

All this is counted on the roll that is reckoned.  A running roll that comes to a value has taken
the same draws, and one that ends at a line that is too long has taken no more.
-/

namespace DicePool

variable {α β : Type}

/-! ### Counting draws -/

namespace Node

mutual

/-- The draws of a roll in which every die is rolled once, apart from explosions: these take so
many times the draws of what is inside. -/
def drawsWith (times : Explosion → Nat) : Node α → Nat
  | die _ _ => 1
  | pool _ items => drawsWithEach times items
  | arithmetic _ _ _ inner => drawsWith times inner
  | selection _ _ _ _ items => drawsWithEach times items
  | explosion _ rule inner => times rule * drawsWith times inner

/-- The draws of several nodes together. -/
def drawsWithEach (times : Explosion → Nat) : List (Node α) → Nat
  | [] => 0
  | node :: rest => drawsWith times node + drawsWithEach times rest

end

/-- The fewest draws that a roll may take: nothing explodes. -/
def fewestDraws (node : Node α) : Nat :=
  node.drawsWith fun _ => 1

/-- The most draws that a roll may take: everything explodes until it is cut off. -/
def mostDraws (node : Node α) : Nat :=
  node.drawsWith fun rule => rule.limit + 1

theorem drawsWithEach_eq_sum (times : Explosion → Nat) (items : List (Node α)) :
    drawsWithEach times items = (items.map (drawsWith times)).sum := by
  induction items with
  | nil => rfl
  | cons node rest ih => rw [drawsWithEach, ih, List.map_cons, List.sum_cons]

/-- The draws of a node are those of its leaves together. -/
theorem sum_drawsWith_leaves (times : Explosion → Nat) (node : Node α) :
    (node.leaves.map (drawsWith times)).sum = node.drawsWith times := by
  induction node with
  | pool slot items ih =>
      rw [leaves_pool, drawsWith, drawsWithEach_eq_sum, List.map_flatMap, List.flatMap_def,
        List.sum_flatten, List.map_map]
      exact congrArg List.sum (List.map_congr_left ih)
  | _ => simp [leaves]

/-- An explosion takes so many times the draws of all that it rolls. -/
theorem drawsWith_explosion (times : Explosion → Nat) (slot : α) (rule : Explosion)
    (inner : Node α) :
    (explosion slot rule inner).drawsWith times
      = times rule * (inner.leaves.map (drawsWith times)).sum := by
  rw [drawsWith, sum_drawsWith_leaves]

end Node

section

variable {items : List β} {rollers : β → Roller α} {low high : β → Nat}

/-- The roller takes at least and at most so many draws, wherever it begins. -/
def TakesBetween (low high : Nat) (roller : Roller α) : Prop :=
  ∀ position, position + low ≤ (roller position).next ∧ (roller position).next ≤ position + high

theorem rollAll_next_between
    (each : ∀ item ∈ items, TakesBetween (low item) (high item) (rollers item))
    (position : Nat) :
    position + (items.map low).sum ≤ (rollAll (items.map rollers) position).next ∧
      (rollAll (items.map rollers) position).next ≤ position + (items.map high).sum := by
  induction items generalizing position with
  | nil => exact ⟨Nat.le_refl _, Nat.le_refl _⟩
  | cons item rest ih =>
      have first := each item (by simp) position
      have others := ih (fun item mem => each item (by simp [mem])) (rollers item position).next
      simp only [List.map_cons, List.sum_cons, rollAll]
      omega

theorem rerolls_next_between {low high : Nat} (again : Int → Bool) {roller : Roller α}
    (once : TakesBetween low high roller) (limit position : Nat) :
    position + low ≤ (rerolls again roller limit position).next ∧
      (rerolls again roller limit position).next ≤ position + (limit + 1) * high := by
  induction limit generalizing position with
  | zero => simpa [rerolls] using once position
  | succ limit ih =>
      have first := once position
      have others := ih (roller position).next
      have spread : (limit + 1 + 1) * high = (limit + 1) * high + high := Nat.succ_mul _ _
      simp only [rerolls]
      split
      · simp only
        omega
      · simp only
        omega

theorem explodeAll_next_between {rule : Explosion}
    (each : ∀ item ∈ items, TakesBetween (low item) (high item) (rollers item))
    (position : Nat) :
    position + (items.map low).sum ≤ (explodeAll rule (items.map rollers) position).next ∧
      (explodeAll rule (items.map rollers) position).next
        ≤ position + (rule.limit + 1) * (items.map high).sum := by
  induction items generalizing position with
  | nil => simp [explodeAll]
  | cons item rest ih =>
      have first := rerolls_next_between rule.matches? (each item (by simp))
        rule.limit position
      have others := ih (fun item mem => each item (by simp [mem]))
        (rerolls rule.matches? (rollers item) rule.limit position).next
      simp only [List.map_cons, List.sum_cons, explodeAll, Nat.mul_add]
      omega

end

namespace Node

/-- However the stream goes on, a roll takes between the fewest and the most draws. -/
theorem next_between (draws : Draws) (node : Node α) :
    TakesBetween node.fewestDraws node.mostDraws (node.roll draws) := by
  induction node using induction_inside with
  | step node ih =>
      intro position
      cases node with
      | die slot d =>
          rw [roll_die]
          exact ⟨Nat.le_refl _, Nat.le_refl _⟩
      | pool slot items =>
          rw [roll_pool, fewestDraws, mostDraws, drawsWith, drawsWith, drawsWithEach_eq_sum,
            drawsWithEach_eq_sum]
          exact rollAll_next_between
            (fun item mem => ih item (item_mem_inside_pool slot mem)) position
      | arithmetic slot operation value inner =>
          rw [roll_arithmetic]
          exact ih inner (by simp) position
      | selection slot s threshold poolSlot items =>
          rw [roll_selection, fewestDraws, mostDraws, drawsWith, drawsWith, drawsWithEach_eq_sum,
            drawsWithEach_eq_sum]
          exact rollAll_next_between
            (fun item mem => ih item (item_mem_inside_selection slot s threshold poolSlot mem))
            position
      | explosion slot rule inner =>
          rw [roll_explosion, fewestDraws, mostDraws, drawsWith_explosion, drawsWith_explosion,
            Nat.one_mul]
          exact explodeAll_next_between
            (fun leaf mem => ih leaf (leaf_mem_inside_explosion slot rule mem)) position

end Node

/-! ### Who takes the draws -/

namespace Node

/-- The die that the node is, with its slot. -/
def die? : Node α → Option (α × Die)
  | die slot d => some (slot, d)
  | _ => none

/-- The dice of the tree from left to right, each with its slot. -/
def dieNodes (node : Node α) : List (α × Die) :=
  node.subtrees.filterMap die?

theorem dieNodes_eq (node : Node α) (noDie : node.die? = none) :
    node.dieNodes = node.inside.filterMap die? := by
  rw [dieNodes, subtrees, List.filterMap_cons_none noDie]

theorem dieNodes_pool (slot : α) (items : List (Node α)) :
    (pool slot items).dieNodes = items.flatMap dieNodes := by
  rw [dieNodes_eq _ rfl, inside_pool, List.filterMap_flatMap]
  rfl

end Node

/-- The throws of dice among the steps, each with what the die has shown. -/
def throws (entries : List (Entry α)) : List ((α × Die) × Int) :=
  entries.filterMap fun entry => entry.node.die?.map fun d => (d, entry.result)

@[simp] theorem throws_append (entries later : List (Entry α)) :
    throws (entries ++ later) = throws entries ++ throws later := by
  simp [throws]

/-- What the dice show for the draws from the position on, one draw for each. -/
def facesFrom (draws : Draws) : Nat → List (α × Die) → List ((α × Die) × Int)
  | _, [] => []
  | position, d :: rest =>
      (d, d.2.face (draws position)) :: facesFrom draws (position + 1) rest

theorem facesFrom_append (draws : Draws) (position : Nat) (dice later : List (α × Die)) :
    facesFrom draws position (dice ++ later)
      = facesFrom draws position dice ++ facesFrom draws (position + dice.length) later := by
  induction dice generalizing position with
  | nil => rfl
  | cons d rest ih =>
      simp only [List.cons_append, facesFrom, ih, List.length_cons]
      rw [Nat.add_assoc, Nat.add_comm 1]

/-- Between the two positions each draw is taken by a throw of one of these dice, in this
order, and these are all throws among the steps. -/
structure Thrown (draws : Draws) (position next : Nat) (entries : List (Entry α))
    (dice : List (α × Die)) : Prop where
  next : next = position + dice.length
  faces : throws entries = facesFrom draws position dice

theorem Thrown.nil (draws : Draws) (position : Nat) :
    Thrown (α := α) draws position position [] [] :=
  ⟨rfl, rfl⟩

theorem Thrown.append {draws : Draws} {position middle last : Nat}
    {entries later : List (Entry α)} {dice others : List (α × Die)}
    (first : Thrown draws position middle entries dice)
    (second : Thrown draws middle last later others) :
    Thrown draws position last (entries ++ later) (dice ++ others) := by
  obtain ⟨rfl, faces⟩ := first
  obtain ⟨rfl, moreFaces⟩ := second
  refine ⟨by rw [List.length_append, Nat.add_assoc], ?_⟩
  rw [throws_append, faces, moreFaces, facesFrom_append]

/-- The step of a node that is no die adds no throw. -/
theorem Thrown.step {draws : Draws} {position next : Nat} {entries : List (Entry α)}
    {dice : List (α × Die)} (thrown : Thrown draws position next entries dice) {node : Node α}
    (noDie : node.die? = none) (measure : Measure) (line : Line) (result : Int) :
    Thrown draws position next (entries ++ [⟨node, measure, line, result⟩]) dice := by
  refine ⟨thrown.next, ?_⟩
  rw [throws_append, thrown.faces]
  simp [throws, noDie]

section

variable {draws : Draws} {items : List β} {rollers : β → Roller α}

/-- What is thrown one by one is thrown in a row. Under a condition it is known what it is. -/
theorem exists_thrown_rollAll {condition : Prop} {dice : β → List (α × Die)}
    (each : ∀ item ∈ items, ∀ position, ∃ thrown,
      Thrown draws position (rollers item position).next (rollers item position).entries thrown ∧
        (condition → thrown = dice item))
    (position : Nat) :
    ∃ thrown, Thrown draws position (rollAll (items.map rollers) position).next
        (rollAll (items.map rollers) position).entries thrown ∧
      (condition → thrown = items.flatMap dice) := by
  induction items generalizing position with
  | nil => exact ⟨[], .nil draws position, fun _ => rfl⟩
  | cons item rest ih =>
      obtain ⟨first, thrown, known⟩ := each item (by simp) position
      obtain ⟨others, later, alsoKnown⟩ :=
        ih (fun item mem => each item (by simp [mem])) (rollers item position).next
      refine ⟨first ++ others, thrown.append later, fun holds => ?_⟩
      rw [known holds, alsoKnown holds, List.flatMap_cons]

theorem exists_thrown_rerolls (again : Int → Bool) {roller : Roller α}
    (once : ∀ position, ∃ thrown,
      Thrown draws position (roller position).next (roller position).entries thrown)
    (limit position : Nat) :
    ∃ thrown, Thrown draws position (rerolls again roller limit position).next
      (rerolls again roller limit position).entries thrown := by
  induction limit generalizing position with
  | zero => exact once position
  | succ limit ih =>
      simp only [rerolls]
      split
      · obtain ⟨first, thrown⟩ := once position
        obtain ⟨others, later⟩ := ih (roller position).next
        exact ⟨first ++ others, thrown.append later⟩
      · exact once position

theorem exists_thrown_explodeAll (rule : Explosion)
    (each : ∀ item ∈ items, ∀ position, ∃ thrown,
      Thrown draws position (rollers item position).next (rollers item position).entries thrown)
    (position : Nat) :
    ∃ thrown, Thrown draws position (explodeAll rule (items.map rollers) position).next
      (explodeAll rule (items.map rollers) position).entries thrown := by
  induction items generalizing position with
  | nil => exact ⟨[], .nil draws position⟩
  | cons item rest ih =>
      obtain ⟨first, thrown⟩ :=
        exists_thrown_rerolls rule.matches? (each item (by simp)) rule.limit position
      obtain ⟨others, later⟩ := ih (fun item mem => each item (by simp [mem]))
        (rerolls rule.matches? (rollers item) rule.limit position).next
      exact ⟨first ++ others, thrown.append later⟩

end

namespace Node

/-- Every draw of a roll is taken by a die, and without explosions these are the dice of the
tree from left to right. -/
theorem exists_thrown (draws : Draws) (node : Node α) (position : Nat) :
    ∃ thrown, Thrown draws position (node.roll draws position).next
        (node.roll draws position).entries thrown ∧
      ((∀ sub ∈ node.subtrees, sub.isExplosion = false) → thrown = node.dieNodes) := by
  induction node using induction_inside generalizing position with
  | step node ih =>
      -- A tree without explosions has none in what is inside.
      have below : ∀ sub ∈ node.inside, ∀ position, ∃ thrown,
          Thrown draws position (sub.roll draws position).next
              (sub.roll draws position).entries thrown ∧
            ((∀ sub ∈ node.subtrees, sub.isExplosion = false) → thrown = sub.dieNodes) := by
        intro sub mem position
        obtain ⟨thrown, shown, known⟩ := ih sub mem position
        exact ⟨thrown, shown, fun noExplosion => known fun deeper deeperMem =>
          noExplosion deeper (subtrees_subset (List.mem_cons_of_mem _ mem) deeperMem)⟩
      cases node with
      | die slot d =>
          rw [roll_die]
          exact ⟨[(slot, d)], ⟨rfl, rfl⟩, fun _ => rfl⟩
      | pool slot items =>
          obtain ⟨thrown, shown, known⟩ := exists_thrown_rollAll
            (fun item mem => below item (item_mem_inside_pool slot mem)) position
          rw [roll_pool]
          refine ⟨thrown, shown.step rfl _ _ _, fun noExplosion => ?_⟩
          rw [known noExplosion, dieNodes_pool]
      | arithmetic slot operation value inner =>
          obtain ⟨thrown, shown, known⟩ := below inner (by simp) position
          rw [roll_arithmetic]
          refine ⟨thrown, shown.step rfl _ _ _, fun noExplosion => ?_⟩
          rw [known noExplosion, dieNodes_eq (arithmetic slot operation value inner) rfl,
            inside_arithmetic]
          rfl
      | selection slot s threshold poolSlot items =>
          obtain ⟨thrown, shown, known⟩ := exists_thrown_rollAll
            (fun item mem => below item (item_mem_inside_selection slot s threshold poolSlot mem))
            position
          rw [roll_selection]
          refine ⟨thrown, shown.step rfl _ _ _, fun noExplosion => ?_⟩
          rw [known noExplosion, dieNodes_eq (selection slot s threshold poolSlot items) rfl,
            inside_selection, ← dieNodes_pool poolSlot items]
          rfl
      | explosion slot rule inner =>
          obtain ⟨thrown, shown⟩ := exists_thrown_explodeAll rule
            (fun leaf mem position =>
              (below leaf (leaf_mem_inside_explosion slot rule mem) position).imp
                fun _ => And.left) position
          rw [roll_explosion]
          refine ⟨thrown, shown.step rfl _ _ _, fun noExplosion => ?_⟩
          have absurdity := noExplosion _ (self_mem_subtrees _)
          simp [isExplosion] at absurdity

/-- A roll finishes, whatever is drawn, and takes no more draws than the tree allows.  It comes to
a value if the lines of all its steps can be written, and then it has taken as many draws as the
tree asks for.  Each is taken by a die, and without explosions they are taken by the dice of the
tree from left to right, one by each.  In a session, nothing but a roll draws. -/
theorem roll_finishes_within_draws (heard : α → Bool) (draws : Draws) {node : Node α}
    (built : node.Constructed) (position : Nat) :
    let outcome := node.reply heard draws .roll position
    (∀ result next, node.Finishes draws position result next ↔
      result = outcome.result ∧ next = outcome.next) ∧
    position ≤ outcome.next ∧ outcome.next ≤ position + node.mostDraws ∧
    (∀ fault, outcome.result = .error fault ↔
      fault = .numberTooLong ∧ (node.roll draws position).isWritten = false) ∧
    (∀ value, outcome.result = .ok value →
      position + node.fewestDraws ≤ outcome.next ∧
      ∃ thrown, Thrown draws position outcome.next
          (node.reply everySlot draws .roll position).entries thrown ∧
        ((∀ sub ∈ node.subtrees, sub.isExplosion = false) → thrown = node.dieNodes)) ∧
    ∀ (session : Session) (request : Request), (∀ name, request ≠ .ask name .roll) →
      (session.step draws request).1.position = session.position := by
  intro outcome
  obtain ⟨least, greatest⟩ := next_between draws node position
  obtain ⟨forward, within⟩ := next_reply_le heard draws built.checked .roll position
  refine ⟨finishes_iff_reply heard draws node position, forward, Nat.le_trans within greatest,
    fun fault => ?_, fun value answered => ?_, fun session request noRoll =>
      session.position_step draws noRoll⟩
  · have result : outcome.result = if (node.roll draws position).isWritten
        then .ok (node.roll draws position).value else .error .numberTooLong :=
      result_reply_eq heard draws built.checked .roll position
    rw [result]
    split
    · next written => simp [written]
    · next tooLong => simp [tooLong, eq_comm]
  · obtain ⟨-, same⟩ := reply_eq_ok heard draws built.checked .roll position answered
    have answered' : (node.reply everySlot draws .roll position).result = .ok value := by
      rw [← result_reply heard, answered]
    obtain ⟨-, same'⟩ := reply_eq_ok everySlot draws built.checked .roll position answered'
    obtain ⟨thrown, shown, known⟩ := exists_thrown draws node position
    simp only [outcome, same, same', heardOf_everySlot]
    exact ⟨least, thrown, shown, known⟩

/-- The dropped die of `(D6+(DF+2))KH1` takes its draw like the other one, and writing the pool
takes none. -/
theorem kept_die_finishes_within_draws :
    let node : Node Nat :=
      .selection 0 .keepHighest 1 1 [.die 2 (.sided 6), .arithmetic 3 .add 2 (.die 4 .fudge)]
    let draws : Draws := .cycle #[5, 2]
    let session : Session := ⟨[("pool", node)], Array.replicate 5 true, 2, []⟩
    node.Constructed ∧
      (node.reply everySlot draws .roll 0).result = .ok 6 ∧
      (∀ sub ∈ node.subtrees, sub.isExplosion = false) ∧
      (∀ name, Request.spelling "pool" ≠ .ask name .roll) ∧
      Thrown draws 0 2 (node.reply everySlot draws .roll 0).entries
        [(2, .sided 6), (4, .fudge)] ∧
      (session.step draws (.spelling "pool")).1.position = 2 := by
  intro node draws session
  have sumBuilt : (arithmetic 3 .add 2 (.die 4 .fudge)).Constructed :=
    .arithmetic 3 ['+'] 2 (.fudge 4) rfl
  have poolBuilt :
      (ofItems 1 [.die 2 (.sided 6), .arithmetic 3 .add 2 (.die 4 .fudge)]).Constructed :=
    .pool 1 (by simpa using ⟨.sided 2 6 rfl, sumBuilt⟩)
  have built : node.Constructed := .selection 0 ['K', 'H'] 1 poolBuilt rfl
  have kept : Selection.keepHighest.select 1 [6, 3] = [6] := by
    simp [Selection.select, List.mergeSort]
  have finished : node.Finishes draws 0 (.ok 6) 2 := by
    have six : Finishes (.cycle #[5, 2]) (.die 2 (.sided 6)) 0 (.ok 6) 1 := .die 2 (.sided 6) 0
    have one : Finishes (.cycle #[5, 2]) (.die 4 .fudge) 1 (.ok 1) 2 := .die 4 .fudge 1
    have three : Finishes (.cycle #[5, 2]) (.arithmetic 3 .add 2 (.die 4 .fudge)) 1 (.ok 3) 2 :=
      .arithmetic 3 .add 2 one
    have each : EachFinishes (.cycle #[5, 2])
        [.die 2 (.sided 6), .arithmetic 3 .add 2 (.die 4 .fudge)] 0 (.ok [6, 3]) 2 :=
      .cons six (.cons three (.nil 2))
    have written : (Line.sum [6]).written 6 = .ok 6 := by decide
    have selected := Finishes.selection 0 .keepHighest 1 1 each
    have added : total [6] = 6 := rfl
    rwa [except_ok_bind, kept, added, written] at selected
  obtain ⟨answered, next⟩ := (finishes_iff_reply everySlot draws node 0 _ _).mp finished
  have noExplosion : ∀ sub ∈ node.subtrees, sub.isExplosion = false := by
    simp [node, subtrees, isExplosion]
  have noRoll : ∀ name, Request.spelling "pool" ≠ .ask name .roll := by
    intro name
    simp
  obtain ⟨-, -, -, -, whole, still⟩ := roll_finishes_within_draws everySlot draws built 0
  obtain ⟨-, thrown, shown, known⟩ := whole 6 answered.symm
  have dice : node.dieNodes = [(2, .sided 6), (4, .fudge)] := rfl
  rw [known noExplosion, dice, ← next] at shown
  exact ⟨built, answered.symm, noExplosion, noRoll, shown, still session (.spelling "pool") noRoll⟩

/-- The pool of `d6^9999+1` and `d6` asks for two draws, and after a six its roll ends with the
first of them: the sum has too many digits to be written. -/
theorem long_power_ends_roll_early :
    let node : Node Nat :=
      .pool 0 [.arithmetic 1 .add 1 (.arithmetic 2 .power 9999 (.die 3 (.sided 6))),
        .die 4 (.sided 6)]
    let outcome := node.reply everySlot (.cycle #[5]) .roll 0
    node.Constructed ∧ outcome.result = .error .numberTooLong ∧
      outcome.next < 0 + node.fewestDraws := by
  intro node outcome
  have powerBuilt : (arithmetic 2 .power 9999 (.die 3 (.sided 6))).Constructed :=
    .arithmetic 2 ['^'] 9999 (.sided 3 6 rfl) rfl
  have sumBuilt :
      (arithmetic 1 .add 1 (.arithmetic 2 .power 9999 (.die 3 (.sided 6)))).Constructed :=
    .arithmetic 1 ['+'] 1 powerBuilt rfl
  have poolBuilt : (ofItems 0 [.arithmetic 1 .add 1 (.arithmetic 2 .power 9999
      (.die 3 (.sided 6))), .die 4 (.sided 6)]).Constructed :=
    .pool 0 (by simpa using ⟨sumBuilt, .sided 4 6 rfl⟩)
  have built : node.Constructed := poolBuilt
  have ends : ∀ exponent : Nat, Numeral.isWritable exponent = true →
      Numeral.isWritable (Operation.power.apply 6 exponent) = false →
      Finishes (.cycle #[5]) (.pool 0 [.arithmetic 1 .add 1
        (.arithmetic 2 .power exponent (.die 3 (.sided 6))), .die 4 (.sided 6)]) 0
        (.error .numberTooLong) 1 := by
    intro exponent short long
    have die : Finishes (.cycle #[5]) (.die 3 (.sided 6)) 0 (.ok 6) 1 :=
      .die 3 (.sided 6) 0
    have raised : Finishes (.cycle #[5]) (.arithmetic 2 .power exponent (.die 3 (.sided 6))) 0
        (.ok (Operation.power.apply 6 exponent)) 1 := by
      have calculated : Operation.power.calculate 6 exponent
          = .ok (Operation.power.apply 6 exponent) := Operation.calculate_eq (by simp) 6
      have written : (Line.calculation 6 .power exponent).written (Operation.power.apply 6 exponent)
          = .ok (Operation.power.apply 6 exponent) := if_pos (by
        rw [Line.isWritable, short]
        decide)
      have step := Finishes.arithmetic 2 .power exponent die
      simpa only [except_ok_bind, calculated, written] using step
    have summed : Finishes (.cycle #[5])
        (.arithmetic 1 .add 1 (.arithmetic 2 .power exponent (.die 3 (.sided 6)))) 0
        (.error .numberTooLong) 1 := by
      have calculated : Operation.add.calculate (Operation.power.apply 6 exponent) 1
          = .ok (Operation.add.apply (Operation.power.apply 6 exponent) 1) :=
        Operation.calculate_eq (by simp) _
      have unwritten : (Line.calculation (Operation.power.apply 6 exponent) .add 1).written
          (Operation.add.apply (Operation.power.apply 6 exponent) 1) = .error .numberTooLong :=
        if_neg (by simp [Line.isWritable, long])
      have step := Finishes.arithmetic 1 .add 1 raised
      simpa only [except_ok_bind, calculated, unwritten] using step
    exact .pool 0 (.ends summed)
  obtain ⟨result, next⟩ := (finishes_iff_reply everySlot (.cycle #[5]) node 0 _ _).mp
    (ends 9999 (by decide) Operation.power_six_not_isWritable)
  refine ⟨built, result.symm, ?_⟩
  have asked : node.fewestDraws = 2 := rfl
  rw [← next, asked]
  decide

end Node

end DicePool
