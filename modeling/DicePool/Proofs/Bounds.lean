/-
Module: DicePool.Proofs.Bounds
Purpose: Rolls stay between the reported bounds.
Main exports: WithinTotal, Node.roll_between, Node.minimum_le_roll_and_roll_le_maximum
-/
import DicePool.Proofs.Constructing
import DicePool.Proofs.Selecting

/-!
The bounds of a node are worked out from the bounds of its parts alone, so that rolls stay
between them is an induction over the tree with an argument of its own for each sort of
node:

* the values of a pool lie place by place between the bounds of its items, and sums and
  selections keep that order;
* monotone arithmetic keeps it as well, and an even power is extreme where `evenBase` says;
* a value that explodes is not below zero, so the further rolls of a die only add to the
  least of its values.

The greatest value of an explosion is only a stand-in, so it is asked of the roll that no
explosion in it has passed it.

The induction is about what is reckoned; what a node reports and rolls, where it does so, is that.
-/

namespace DicePool

variable {α : Type}

/-- No explosion among these steps has passed the number that stands for the absence of
a bound. -/
def WithinTotal (entries : List (Entry α)) : Prop :=
  ∀ entry ∈ entries, entry.node.isExplosion = true → entry.result ≤ unboundedTotal

theorem withinTotal_append {entries later : List (Entry α)} :
    WithinTotal (entries ++ later) ↔ WithinTotal entries ∧ WithinTotal later := by
  simp [WithinTotal, or_imp, forall_and]

/-! ### Dice -/

namespace Die

theorem face_mem {faces : List Int} (checked : (custom faces).Checked) (draw : Nat) :
    (custom faces).face draw ∈ faces := by
  have positive : 0 < faces.length := by
    simp only [Checked, size] at checked
    omega
  have inBounds := Nat.mod_lt draw positive
  simp only [face, List.getD_eq_getElem?_getD, List.getElem?_eq_getElem inBounds,
    Option.getD_some]
  exact List.getElem_mem inBounds

theorem lowest_le {faces : List Int} {x : Int} (mem : x ∈ faces) : (custom faces).lowest ≤ x := by
  have nonempty := List.ne_nil_of_mem mem
  simp only [lowest, List.min?_eq_some_min nonempty, Option.getD_some]
  exact List.min_le_of_mem mem

theorem le_highest {faces : List Int} {x : Int} (mem : x ∈ faces) : x ≤ (custom faces).highest := by
  have nonempty := List.ne_nil_of_mem mem
  simp only [highest, List.max?_eq_some_max nonempty, Option.getD_some]
  exact List.le_max_of_mem mem

/-- Whatever is drawn, a die shows a face between its extremes. -/
theorem face_between {d : Die} (checked : d.Checked) (draw : Nat) :
    d.lowest ≤ d.face draw ∧ d.face draw ≤ d.highest := by
  cases d with
  | sided sides =>
      have inBounds := Nat.mod_lt draw (show 0 < sides by
        simp only [Checked, size] at checked
        omega)
      simp only [lowest, face, highest]
      omega
  | percentile =>
      simp only [lowest, face, highest]
      omega
  | fudge =>
      simp only [lowest, face, highest]
      omega
  | custom faces =>
      have mem := face_mem checked draw
      exact ⟨lowest_le mem, le_highest mem⟩

end Die

/-! ### Rows of rolls -/

section

variable {draws : Draws} {β : Type} {items : List β} {rollers : β → Roller α}
  {low high : β → Int}

/-- Rolls one after the other lie place by place between their bounds. -/
theorem rollAll_between
    (each : ∀ item ∈ items, ∀ position, WithinTotal (rollers item position).entries →
      low item ≤ (rollers item position).value ∧ (rollers item position).value ≤ high item)
    (position : Nat) (within : WithinTotal (rollAll (items.map rollers) position).entries) :
    PointwiseLe (items.map low) (rollAll (items.map rollers) position).values ∧
      PointwiseLe (rollAll (items.map rollers) position).values (items.map high) := by
  induction items generalizing position with
  | nil => exact ⟨.nil, .nil⟩
  | cons item rest ih =>
      simp only [List.map_cons, rollAll, withinTotal_append] at within ⊢
      have first := each item (by simp) position within.1
      have others := ih (fun item mem => each item (by simp [mem])) _ within.2
      exact ⟨.cons first.1 others.1, .cons first.2 others.2⟩

/-- A value between bounds that explodes is no less than the lowest explosion. -/
theorem Explosion.lowestExplosion_le {rule : Explosion} {low high value : Int}
    (lowLe : low ≤ value) (leHigh : value ≤ high) (goesOn : rule.matches? value = true) :
    rule.lowestExplosion low high ≤ value := by
  obtain ⟨comparison, threshold, limit⟩ := rule
  have possible : canExplode ⟨comparison, threshold, limit⟩ low high = true := by
    cases comparison <;> simp [matches?, Comparison.holds, canExplode] at goesOn ⊢ <;> omega
  rw [lowestExplosion, if_pos possible]
  cases comparison <;> simp [matches?, Comparison.holds] at goesOn ⊢ <;> omega

/-- Further rolls of a die do not bring it below its least value. -/
theorem le_rerolls_sum {rule : Explosion} {roller : Roller α} {low high : Int}
    (bounded : ∀ position, WithinTotal (roller position).entries →
      low ≤ (roller position).value ∧ (roller position).value ≤ high)
    (notBelowZero : 0 ≤ rule.lowestExplosion low high) (limit position : Nat)
    (within : WithinTotal (rerolls rule.matches? roller limit position).entries) :
    low ≤ (rerolls rule.matches? roller limit position).values.sum := by
  induction limit generalizing position with
  | zero =>
      simp only [rerolls] at within ⊢
      simpa using (bounded position within).1
  | succ limit ih =>
      simp only [rerolls] at within ⊢
      split at within
      · next goesOn =>
          rw [withinTotal_append] at within
          have first := bounded position within.1
          have others := ih _ within.2
          have exploding := rule.lowestExplosion_le first.1 first.2 goesOn
          rw [if_pos goesOn, List.sum_cons]
          omega
      · next stops =>
          rw [if_neg stops]
          simpa using (bounded position within).1

/-- Exploded dice make at least the sum of their least values. -/
theorem sum_le_explodeAll_sum {rule : Explosion}
    (each : ∀ item ∈ items, ∀ position, WithinTotal (rollers item position).entries →
      low item ≤ (rollers item position).value ∧ (rollers item position).value ≤ high item)
    (notBelowZero : ∀ item ∈ items, 0 ≤ rule.lowestExplosion (low item) (high item))
    (position : Nat) (within : WithinTotal (explodeAll rule (items.map rollers) position).entries) :
    (items.map low).sum ≤ (explodeAll rule (items.map rollers) position).values.sum := by
  induction items generalizing position with
  | nil => exact le_refl _
  | cons item rest ih =>
      simp only [List.map_cons, explodeAll, withinTotal_append] at within ⊢
      have first := le_rerolls_sum (each item (by simp)) (notBelowZero item (by simp)) _ _ within.1
      have others := ih (fun item mem => each item (by simp [mem]))
        (fun item mem => notBelowZero item (by simp [mem])) _ within.2
      rw [List.sum_cons, List.sum_append]
      exact add_le_add first others

end

namespace Node

/-- What a node reports at an end, its leaves report together. -/
theorem sum_extreme_leaves (side : Extreme) (node : Node α) :
    (node.leaves.map (extreme side)).sum = node.extreme side := by
  induction node with
  | pool slot items ih =>
      rw [leaves_pool, extreme_pool]
      induction items with
      | nil => rfl
      | cons item rest rest_ih =>
          simp only [List.flatMap_cons, List.map_append, List.sum_append, List.map_cons,
            List.sum_cons]
          rw [ih item (by simp), rest_ih fun item mem => ih item (by simp [mem])]
  | _ => simp [leaves]

/-- Arithmetic on a value between the bounds stays between the bounds that are worked out
for it. -/
theorem arithmetic_between (slot : α) (operation : Operation) (value : Nat) (inner : Node α)
    {lhs : Int} (lowLe : inner.minimum ≤ lhs) (leHigh : lhs ≤ inner.maximum) :
    (arithmetic slot operation value inner).minimum ≤ operation.apply lhs value ∧
      operation.apply lhs value ≤ (arithmetic slot operation value inner).maximum := by
  rw [← extreme_lowest, ← extreme_highest, extreme_arithmetic, extreme_arithmetic]
  split
  · next monotone =>
      exact ⟨Operation.apply_le_apply monotone lowLe, Operation.apply_le_apply monotone leHigh⟩
  · next notMonotone =>
      obtain ⟨rfl, even⟩ := Operation.even_of_not_isMonotone (by simpa using notMonotone)
      exact ⟨Operation.even_power_le_power even (natAbs_evenBase_lowest_le lowLe leHigh),
        Operation.even_power_le_power even (natAbs_le_evenBase_highest lowLe leHigh)⟩

theorem roll_between {node : Node α} (checked : ∀ sub ∈ node.subtrees, sub.Checked)
    (draws : Draws) (position : Nat)
    (within : WithinTotal (node.roll draws position).entries) :
    node.minimum ≤ (node.roll draws position).value ∧
      (node.roll draws position).value ≤ node.maximum := by
  refine induction_everywhere (motive := fun node => ∀ position,
      WithinTotal (node.roll draws position).entries →
        node.minimum ≤ (node.roll draws position).value ∧
          (node.roll draws position).value ≤ node.maximum)
    (fun node self bounded position within => ?_) checked position within
  cases node with
  | die slot d =>
      rw [roll_die, ← extreme_lowest, ← extreme_highest, extreme_die, extreme_die]
      exact Die.face_between self _
  | pool slot items =>
      rw [roll_pool] at within ⊢
      have places := rollAll_between
        (fun item mem => bounded item (item_mem_inside_pool slot mem)) position
        (withinTotal_append.mp within).1
      rw [← extreme_lowest, ← extreme_highest, extreme_pool, extreme_pool]
      exact ⟨places.1.sum_le, places.2.sum_le⟩
  | arithmetic slot operation value inner =>
      rw [roll_arithmetic] at within ⊢
      have base := bounded inner (by simp) position (withinTotal_append.mp within).1
      exact arithmetic_between slot operation value inner base.1 base.2
  | selection slot s threshold poolSlot items =>
      rw [roll_selection] at within ⊢
      have places := rollAll_between
        (fun item mem =>
          bounded item (item_mem_inside_selection slot s threshold poolSlot mem)) position
        (withinTotal_append.mp within).1
      rw [← extreme_lowest, ← extreme_highest, extreme_selection, extreme_selection]
      exact ⟨(places.1.select s threshold).sum_le, (places.2.select s threshold).sum_le⟩
  | explosion slot rule inner =>
      rw [roll_explosion] at within ⊢
      obtain ⟨parts, own⟩ := withinTotal_append.mp within
      constructor
      · rw [minimum_explosion, ← extreme_lowest inner, ← sum_extreme_leaves]
        exact sum_le_explodeAll_sum
          (fun leaf mem => bounded leaf (leaf_mem_inside_explosion slot rule mem))
          (fun leaf mem => self.suits.notBelowZero _ (List.mem_map_of_mem mem)) position parts
      · rw [maximum_explosion]
        exact own _ (List.mem_singleton_self _) rfl

/-! ### Steps of a roll are steps of its tree -/

theorem withinTotal_of_no_explosion {heard : α → Bool} {node : Node α}
    (noExplosion : ∀ sub ∈ node.subtrees, sub.isExplosion = false) (draws : Draws)
    (measure : Measure) (position : Nat) :
    WithinTotal (node.reply heard draws measure position).entries := by
  intro entry mem explodes
  rw [noExplosion _ (node_mem_subtrees_of_mem_reply mem)] at explodes
  contradiction

/-- A roll that comes to a value lies between the bounds that the node reports, where it reports
them, if no explosion in it passes the number that stands for no bound. In a tree without
explosions nothing has to be asked. -/
theorem minimum_le_roll_and_roll_le_maximum {node : Node α} (built : node.Constructed)
    (heard : α → Bool) (draws : Draws) (position : Nat) {value : Int}
    (rolled : (node.reply heard draws .roll position).result = .ok value) :
    (WithinTotal (node.reply everySlot draws .roll position).entries →
      (∀ low, node.reported .lowest = .ok low → low ≤ value) ∧
        ∀ high, node.reported .highest = .ok high → value ≤ high) ∧
    ((∀ sub ∈ node.subtrees, sub.isExplosion = false) →
      (∀ low, node.reported .lowest = .ok low → low ≤ value) ∧
        ∀ high, node.reported .highest = .ok high → value ≤ high) := by
  have bounded : WithinTotal (node.reply everySlot draws .roll position).entries →
      (∀ low, node.reported .lowest = .ok low → low ≤ value) ∧
        ∀ high, node.reported .highest = .ok high → value ≤ high := by
    intro within
    rw [result_reply] at rolled
    obtain ⟨same, reply⟩ := reply_eq_ok everySlot draws built.checked .roll position rolled
    rw [reply, heardOf_everySlot] at within
    obtain ⟨lowLe, leHigh⟩ := roll_between built.checked draws position within
    rw [same]
    constructor
    · intro low reported
      rwa [eq_of_reported built.checked .lowest reported]
    · intro high reported
      rwa [eq_of_reported built.checked .highest reported]
  exact ⟨bounded, fun noExplosion =>
    bounded (withinTotal_of_no_explosion noExplosion draws .roll position)⟩

/-- The square of an explosion of a die that may show less than zero, on a stream on which
the other die explodes twice. -/
theorem exploded_square_between_bounds :
    let pool : Node Unit := .pool () [.die () (.sided 6), .die () .fudge]
    let node : Node Unit := .arithmetic () .power 2 (.explosion () ⟨.greater, 4, 2⟩ pool)
    let draws : Draws := .cycle #[5, 4, 0, 0]
    node.Constructed ∧ (node.reply everySlot draws .roll 0).result = .ok 121 ∧
      WithinTotal (node.reply everySlot draws .roll 0).entries ∧
      (∀ low, node.reported .lowest = .ok low → low ≤ 121) ∧
        ∀ high, node.reported .highest = .ok high → 121 ≤ high := by
  intro pool node draws
  have poolBuilt : (ofItems () [die () (.sided 6), die () .fudge]).Constructed :=
    .pool () (by simpa using ⟨.sided () 6 rfl, .fudge ()⟩)
  have explosionBuilt : (explosion () ⟨.greater, 4, 2⟩ pool).Constructed :=
    .explosion everySlot () ['>'] 4 2 0 poolBuilt rfl
  have built : node.Constructed :=
    .arithmetic () ['^'] 2 explosionBuilt rfl
  have rolled : (node.reply everySlot draws .roll 0).result = .ok 121 := by decide
  have within : WithinTotal (node.reply everySlot draws .roll 0).entries := by
    unfold WithinTotal
    decide
  exact ⟨built, rolled, within,
    (minimum_le_roll_and_roll_le_maximum built everySlot draws 0 rolled).1 within⟩

end Node

end DicePool
