/-
Module: DicePool.Proofs.Exceeding
Purpose: When an explosion passes the number that it reports as its maximum.
Main exports: Explosion.greatestExplosion, Die.greatestExplosion, Node.ceiling, Node.Contained,
  Node.OfDice.exists_roll_eq_ceiling, Node.explosion_within_maximum
-/
import DicePool.Proofs.Exploding

/-!
The number that an explosion reports as its maximum is the same for every explosion, although
the limit bounds what can be rolled.  The bound that it gives is `Node.ceiling`: of every item of
an explosion, the greatest value that can explode counts as often as the item can be rolled
again, and the ceiling of the item counts once.  Everywhere else ceilings are worked out like
maxima.

A tree in which no ceiling of an explosion is above the reported number is `Node.Contained`, and
its rolls stay between the bounds that it reports.  For dice the ceiling is sharp, so there is no
other reason for an explosion to stay below its maximum (`Node.explosion_within_maximum`).  Where
the ceiling is above the number, rolls can pass the maximum, and even the minimum can be above
it: `Node.explosions_pass_their_maximum`.
-/

namespace DicePool

variable {α β : Type}

/-! ### Values that explode -/

namespace Explosion

variable {rule : Explosion} {low high : Int}

/-- The greatest value between the bounds that can explode; zero if there is none. -/
def greatestExplosion (rule : Explosion) (low high : Int) : Int :=
  if rule.canExplode low high then
    match rule.comparison with
    | .greater => high
    | .less => min (rule.threshold - 1) high
    | .equal => rule.threshold
  else
    0

theorem le_greatestExplosion {value : Int} (lowLe : low ≤ value) (leHigh : value ≤ high)
    (goesOn : rule.matches? value = true) : value ≤ rule.greatestExplosion low high := by
  obtain ⟨comparison, threshold, limit⟩ := rule
  have possible : canExplode ⟨comparison, threshold, limit⟩ low high = true := by
    cases comparison <;> simp [matches?, Comparison.holds, canExplode] at goesOn ⊢ <;> omega
  rw [greatestExplosion, if_pos possible]
  cases comparison <;> simp [matches?, Comparison.holds] at goesOn ⊢ <;> omega

/-- Where nothing explodes below zero under a wider bound, nothing does under a narrower one. -/
theorem zero_le_greatestExplosion {wide : Int} (nonempty : low ≤ high) (narrower : high ≤ wide)
    (notBelowZero : 0 ≤ rule.lowestExplosion low wide) :
    0 ≤ rule.greatestExplosion low high := by
  unfold greatestExplosion
  split
  · next possible =>
      obtain ⟨comparison, threshold, limit⟩ := rule
      have possibleToo : canExplode ⟨comparison, threshold, limit⟩ low wide = true := by
        cases comparison <;> simp [canExplode] at possible ⊢ <;> omega
      rw [lowestExplosion, if_pos possibleToo] at notBelowZero
      cases comparison <;> simp [canExplode] at possible notBelowZero ⊢ <;> omega
  · exact le_refl 0

end Explosion

namespace Die

variable {rule : Explosion} {d : Die}

/-- The greatest face that explodes; zero if none does. -/
def greatestExplosion (rule : Explosion) (d : Die) : Int :=
  (d.faces.filter rule.matches?).max?.getD 0

/-- The greatest face that explodes is one, unless none does. -/
theorem greatestExplosion_mem_or (rule : Explosion) (d : Die) :
    (d.greatestExplosion rule ∈ d.faces ∧ rule.matches? (d.greatestExplosion rule) = true) ∨
      (d.greatestExplosion rule = 0 ∧ ∀ face ∈ d.faces, rule.matches? face = false) := by
  rw [greatestExplosion]
  by_cases nothing : d.faces.filter rule.matches? = []
  · right
    refine ⟨by simp [nothing], fun face mem => ?_⟩
    simpa using List.filter_eq_nil_iff.mp nothing face mem
  · left
    rw [List.max?_eq_some_max nothing, Option.getD_some]
    exact List.mem_filter.mp (List.max_mem nothing)

theorem le_greatestExplosion {face : Int} (mem : face ∈ d.faces)
    (explodes : rule.matches? face = true) : face ≤ d.greatestExplosion rule := by
  have found : face ∈ d.faces.filter rule.matches? := List.mem_filter.mpr ⟨mem, explodes⟩
  rw [greatestExplosion, List.max?_eq_some_max (List.ne_nil_of_mem found), Option.getD_some]
  exact List.le_max_of_mem found

theorem zero_le_greatestExplosion (checked : d.Checked)
    (notBelowZero : 0 ≤ rule.lowestExplosion d.lowest d.highest) :
    0 ≤ d.greatestExplosion rule := by
  rcases greatestExplosion_mem_or rule d with ⟨mem, explodes⟩ | ⟨zero, -⟩
  · exact zero_le_of_matches checked notBelowZero mem explodes
  · exact zero.ge

end Die

/-! ### Ceilings -/

namespace Node

/-- The greatest value of the node that can explode, if it rolls at most `high`; zero if there is
none. -/
def greatestExplosion (rule : Explosion) (high : Int) : Node α → Int
  | die _ d => d.greatestExplosion rule
  | node => rule.greatestExplosion node.minimum high

/-- What the rolls of one item of an explosion can add up to, if it rolls at most `high`. -/
def exploded (node : Node α) (high : Int) (rule : Explosion) : Int :=
  rule.limit * node.greatestExplosion rule high + high

/-- The ceiling of a node that is the only leaf of itself. -/
def ceilingAlone (node : Node α) (high : Int) : Int × List (Explosion → Int) :=
  (high, [node.exploded high])

mutual

/-- What a roll of the node can be at most, and what the rolls of each of its leaves can add up
to if it is exploded. -/
def ceilings : Node α → Int × List (Explosion → Int)
  | die slot d => ceilingAlone (die slot d) d.highest
  | pool _ items =>
      let each := ceilingsEach items
      ((each.map (·.1)).sum, each.flatMap (·.2))
  | arithmetic slot operation value inner =>
      let high := (ceilings inner).1
      ceilingAlone (arithmetic slot operation value inner)
        (operation.apply
          (if operation.isMonotone value then high else evenBase .highest inner.minimum high) value)
  | selection slot s threshold poolSlot items =>
      let each := ceilingsEach items
      ceilingAlone (selection slot s threshold poolSlot items)
        (s.select threshold (each.map (·.1))).sum
  | explosion slot rule inner =>
      let leaves := (ceilings inner).2
      ceilingAlone (explosion slot rule inner) (leaves.map (· rule)).sum

/-- The ceilings of several nodes. -/
def ceilingsEach : List (Node α) → List (Int × List (Explosion → Int))
  | [] => []
  | node :: rest => ceilings node :: ceilingsEach rest

end

/-- What a roll of the node can be at most. -/
def ceiling (node : Node α) : Int :=
  node.ceilings.1

theorem ceilingsEach_eq_map (items : List (Node α)) :
    ceilingsEach items = items.map ceilings := by
  induction items with
  | nil => rfl
  | cons node rest ih => rw [ceilingsEach, ih, List.map_cons]

/-- The second part of `ceilings` speaks of the leaves. -/
theorem ceilings_leaves (node : Node α) :
    node.ceilings.2 = node.leaves.map fun leaf => leaf.exploded leaf.ceiling := by
  induction node with
  | pool slot items ih =>
      rw [leaves_pool, ceilings, ceilingsEach_eq_map, List.map_flatMap, List.flatMap_map]
      exact List.flatMap_congr ih
  | _ => simp [ceilings, leaves, ceilingAlone, ceiling]

theorem ceiling_die (slot : α) (d : Die) : (die slot d).ceiling = d.highest := by
  simp [ceiling, ceilings, ceilingAlone]

theorem ceiling_pool (slot : α) (items : List (Node α)) :
    (pool slot items).ceiling = (items.map ceiling).sum := by
  rw [ceiling, ceilings, ceilingsEach_eq_map, List.map_map]
  rfl

theorem ceiling_arithmetic (slot : α) (operation : Operation) (value : Nat) (inner : Node α) :
    (arithmetic slot operation value inner).ceiling
      = operation.apply
          (if operation.isMonotone value then inner.ceiling
            else evenBase .highest inner.minimum inner.ceiling)
          value := by
  rw [ceiling, ceilings]
  rfl

theorem ceiling_selection (slot : α) (s : Selection) (threshold : Nat) (poolSlot : α)
    (items : List (Node α)) :
    (selection slot s threshold poolSlot items).ceiling
      = (s.select threshold (items.map ceiling)).sum := by
  rw [ceiling, ceilings, ceilingsEach_eq_map, List.map_map]
  rfl

/-- An explosion adds up what its leaves can add up to. -/
theorem ceiling_explosion (slot : α) (rule : Explosion) (inner : Node α) :
    (explosion slot rule inner).ceiling
      = (inner.leaves.map fun leaf => leaf.exploded leaf.ceiling rule).sum := by
  rw [ceiling, ceilings, ceilings_leaves, List.map_map]
  rfl

end Node

/-! ### Sums of exploded rolls -/

section

variable {items : List β} {rollers : β → Roller α}

/-- As often as there are further rolls, values that explode are added to a last one. -/
theorem rerolls_sum_le {again : Int → Bool} {roller : Roller α} {most high : Int}
    (natural : 0 ≤ most) (below : ∀ position, (roller position).value ≤ high)
    (exploding : ∀ position, again (roller position).value = true → (roller position).value ≤ most)
    (limit position : Nat) :
    (rerolls again roller limit position).values.sum ≤ limit * most + high := by
  induction limit generalizing position with
  | zero => simpa [rerolls] using below position
  | succ limit ih =>
      simp only [rerolls, Nat.cast_succ, add_one_mul]
      split
      · next goesOn =>
          have first := exploding position goesOn
          have others := ih (roller position).next
          rw [List.sum_cons]
          omega
      · have only := below position
        have further : 0 ≤ limit * most := mul_nonneg (Int.natCast_nonneg limit) natural
        simp only [List.sum_cons, List.sum_nil]
        omega

theorem explodeAll_sum_le {rule : Explosion} {most high : β → Int}
    (natural : ∀ item ∈ items, 0 ≤ most item)
    (below : ∀ item ∈ items, ∀ position, (rollers item position).value ≤ high item)
    (exploding : ∀ item ∈ items, ∀ position,
      rule.matches? (rollers item position).value = true →
        (rollers item position).value ≤ most item)
    (position : Nat) :
    (explodeAll rule (items.map rollers) position).values.sum
      ≤ (items.map fun item => rule.limit * most item + high item).sum := by
  induction items generalizing position with
  | nil => exact le_refl _
  | cons item rest ih =>
      have first := rerolls_sum_le (natural item List.mem_cons_self) (below item List.mem_cons_self)
        (exploding item List.mem_cons_self) rule.limit position
      have others := ih (List.forall_mem_cons.mp natural).2 (List.forall_mem_cons.mp below).2
        (List.forall_mem_cons.mp exploding).2
        (rerolls rule.matches? (rollers item) rule.limit position).next
      simp only [List.map_cons, explodeAll, List.sum_cons, List.sum_append]
      exact add_le_add first others

end

/-- Arithmetic on a value in a range is at most what is worked out from the ends of it. -/
theorem Operation.apply_le_apply_end (operation : Operation) (value : Nat) {low high x : Int}
    (lowLe : low ≤ x) (leHigh : x ≤ high) :
    operation.apply x value ≤ operation.apply
      (if operation.isMonotone value then high else evenBase .highest low high) value := by
  split
  · next monotone => exact apply_le_apply monotone leHigh
  · next notMonotone =>
      obtain ⟨rfl, even⟩ := even_of_not_isMonotone (by simpa using notMonotone)
      exact even_power_le_power even (natAbs_le_evenBase_highest lowLe leHigh)

/-- The base of the highest even power is one of the ends of its range. -/
theorem evenBase_highest_between {low high : Int} (nonempty : low ≤ high) :
    low ≤ evenBase .highest low high ∧ evenBase .highest low high ≤ high := by
  simp only [evenBase]
  split
  · exact ⟨le_refl low, nonempty⟩
  · exact ⟨nonempty, le_refl high⟩

theorem PointwiseLe.map {items : List β} {low high : β → Int}
    (each : ∀ item ∈ items, low item ≤ high item) :
    PointwiseLe (items.map low) (items.map high) := by
  rw [PointwiseLe, List.forall₂_map_left_iff, List.forall₂_map_right_iff, List.forall₂_same]
  exact each

namespace Node

/-! ### Trees that stay below the reported number -/

/-- No explosion in the tree has a ceiling above the number that stands for the absence of a
bound. -/
def Contained (node : Node α) : Prop :=
  ∀ sub ∈ node.subtrees, sub.isExplosion = true → sub.ceiling ≤ unboundedTotal

/-- On the stream the node is rolled up to its ceiling, no explosion in it passes the number that
stands for no bound, and the ceiling is no more than its maximum. -/
structure StaysBelow (draws : Draws) (node : Node α) : Prop where
  checked : ∀ sub ∈ node.subtrees, sub.Checked
  within : ∀ position, WithinTotal (node.roll draws position).entries
  le_ceiling : ∀ position, (node.roll draws position).value ≤ node.ceiling
  ceiling_le : node.ceiling ≤ node.maximum

section

variable {draws : Draws}

theorem StaysBelow.minimum_le {node : Node α} (below : node.StaysBelow draws) (position : Nat) :
    node.minimum ≤ (node.roll draws position).value :=
  (roll_between below.checked draws position (below.within position)).1

theorem withinTotal_step {node : Node α} {measure : Measure} {line : Line} {result : Int}
    (low : node.isExplosion = true → result ≤ unboundedTotal) :
    WithinTotal [⟨node, measure, line, result⟩] := by
  intro entry mem explodes
  obtain rfl := List.mem_singleton.mp mem
  exact low explodes

/-- Items one after the other are rolled place by place between their bounds. -/
theorem staysBelow_row {items : List (Node α)} (each : ∀ item ∈ items, item.StaysBelow draws) :
    (∀ position,
      PointwiseLe (rollAll (items.map (roll draws)) position).values (items.map ceiling) ∧
      WithinTotal (rollAll (items.map (roll draws)) position).entries) ∧
    PointwiseLe (items.map ceiling) (items.map (extreme .highest)) := by
  refine ⟨fun position => ?_, .map fun item mem => (each item mem).ceiling_le⟩
  have within : WithinTotal (rollAll (items.map (roll draws)) position).entries := by
    intro entry mem
    obtain ⟨item, itemMem, position, found⟩ := mem_rollAll_entries mem
    exact (each item itemMem).within position entry found
  have bounded : ∀ item ∈ items, ∀ position, WithinTotal (item.roll draws position).entries →
      item.minimum ≤ (item.roll draws position).value ∧
        (item.roll draws position).value ≤ item.ceiling :=
    fun item mem position _ =>
      ⟨(each item mem).minimum_le position, (each item mem).le_ceiling position⟩
  exact ⟨(rollAll_between bounded position within).2, within⟩

theorem StaysBelow.minimum_le_ceiling {node : Node α} (below : node.StaysBelow draws) :
    node.minimum ≤ node.ceiling :=
  (below.minimum_le 0).trans (below.le_ceiling 0)

/-- What a leaf rolls and makes an explosion go on is no more than its greatest explosion. -/
theorem StaysBelow.le_greatestExplosion {leaf : Node α} (below : leaf.StaysBelow draws)
    {rule : Explosion} {position : Nat}
    (goesOn : rule.matches? (leaf.roll draws position).value = true) :
    (leaf.roll draws position).value ≤ leaf.greatestExplosion rule leaf.ceiling := by
  have low := below.minimum_le position
  have high := below.le_ceiling position
  cases leaf with
  | die slot d =>
      rw [roll_die] at goesOn ⊢
      have checked : d.Checked := below.checked _ (self_mem_subtrees _)
      exact Die.le_greatestExplosion ((Die.mem_faces_iff checked).mpr ⟨_, rfl⟩) goesOn
  | _ => exact Explosion.le_greatestExplosion low high goesOn

theorem StaysBelow.zero_le_greatestExplosion {leaf : Node α} (below : leaf.StaysBelow draws)
    {rule : Explosion} (notBelowZero : 0 ≤ rule.lowestExplosion leaf.minimum leaf.maximum) :
    0 ≤ leaf.greatestExplosion rule leaf.ceiling := by
  have nonempty := below.minimum_le_ceiling
  have narrower := below.ceiling_le
  cases leaf with
  | die slot d =>
      exact Die.zero_le_greatestExplosion (below.checked _ (self_mem_subtrees _)) notBelowZero
  | _ => exact Explosion.zero_le_greatestExplosion nonempty narrower notBelowZero

theorem staysBelow_arithmetic {slot : α} {operation : Operation} {value : Nat} {inner : Node α}
    (checked : ∀ sub ∈ (arithmetic slot operation value inner).subtrees, sub.Checked)
    (below : inner.StaysBelow draws) :
    (arithmetic slot operation value inner).StaysBelow draws where
  checked := checked
  within position := by
    rw [roll_arithmetic]
    exact withinTotal_append.mpr ⟨below.within position, withinTotal_step nofun⟩
  le_ceiling position := by
    rw [roll_arithmetic, ceiling_arithmetic]
    exact operation.apply_le_apply_end value (below.minimum_le position) (below.le_ceiling position)
  ceiling_le := by
    have nonempty := below.minimum_le_ceiling
    have ends := evenBase_highest_between nonempty
    rw [ceiling_arithmetic]
    split
    · exact (arithmetic_between slot operation value inner nonempty below.ceiling_le).2
    · exact (arithmetic_between slot operation value inner ends.1
        (ends.2.trans below.ceiling_le)).2

theorem staysBelow_explosion {slot : α} {rule : Explosion} {inner : Node α}
    (checked : ∀ sub ∈ (explosion slot rule inner).subtrees, sub.Checked)
    (contained : (explosion slot rule inner).ceiling ≤ unboundedTotal)
    (each : ∀ leaf ∈ inner.leaves, leaf.StaysBelow draws) :
    (explosion slot rule inner).StaysBelow draws := by
  have explodes : inner.Explodes rule := checked _ (self_mem_subtrees _)
  have le : ∀ position, (explodeAll rule (inner.leaves.map (roll draws)) position).values.sum
      ≤ (explosion slot rule inner).ceiling := by
    intro position
    rw [ceiling_explosion]
    exact explodeAll_sum_le
      (fun leaf mem => (each leaf mem).zero_le_greatestExplosion
        (explodes.suits.notBelowZero _ (List.mem_map_of_mem mem)))
      (fun leaf mem => (each leaf mem).le_ceiling)
      (fun leaf mem _ => (each leaf mem).le_greatestExplosion) position
  refine ⟨checked, fun position => ?_, fun position => ?_, ?_⟩
  · rw [roll_explosion]
    refine withinTotal_append.mpr ⟨fun entry mem => ?_,
      withinTotal_step fun _ => (le position).trans contained⟩
    obtain ⟨leaf, leafMem, position, found⟩ := mem_explodeAll.1 entry mem
    exact (each leaf leafMem).within position entry found
  · rw [roll_explosion]
    exact le position
  · rw [maximum_explosion]
    exact contained

end

/-- In a tree in which no explosion can pass the number that stands for no bound, every node is
rolled between its minimum and its ceiling. -/
theorem Contained.staysBelow {node : Node α} (contained : node.Contained)
    (checked : ∀ sub ∈ node.subtrees, sub.Checked) (draws : Draws) : node.StaysBelow draws := by
  have everywhere : ∀ sub ∈ node.subtrees, (∀ deeper ∈ sub.subtrees, deeper.Checked) ∧
      (sub.isExplosion = true → sub.ceiling ≤ unboundedTotal) :=
    fun sub mem => ⟨fun deeper deeperMem => checked deeper (subtrees_subset mem deeperMem),
      contained sub mem⟩
  refine induction_everywhere (motive := StaysBelow draws) (fun node self below => ?_) everywhere
  cases node with
  | die slot d =>
      have die : d.Checked := self.1 _ (self_mem_subtrees _)
      refine ⟨self.1, fun position => ?_, fun position => ?_, ?_⟩
      · rw [roll_die]
        exact withinTotal_step nofun
      · rw [roll_die, ceiling_die]
        exact (Die.face_between die _).2
      · rw [ceiling_die, ← extreme_highest, extreme_die]
        exact le_refl _
  | pool slot items =>
      obtain ⟨rolled, ends⟩ :=
        staysBelow_row fun item mem => below item (item_mem_inside_pool slot mem)
      refine ⟨self.1, fun position => ?_, fun position => ?_, ?_⟩
      · rw [roll_pool]
        exact withinTotal_append.mpr ⟨(rolled position).2, withinTotal_step nofun⟩
      · rw [roll_pool, ceiling_pool]
        exact (rolled position).1.sum_le
      · rw [ceiling_pool, ← extreme_highest, extreme_pool]
        exact ends.sum_le
  | arithmetic slot operation value inner =>
      exact staysBelow_arithmetic self.1 (below inner (by simp))
  | selection slot s threshold poolSlot items =>
      obtain ⟨rolled, ends⟩ := staysBelow_row fun item mem =>
        below item (item_mem_inside_selection slot s threshold poolSlot mem)
      refine ⟨self.1, fun position => ?_, fun position => ?_, ?_⟩
      · rw [roll_selection]
        exact withinTotal_append.mpr ⟨(rolled position).2, withinTotal_step nofun⟩
      · rw [roll_selection, ceiling_selection]
        exact ((rolled position).1.select s threshold).sum_le
      · rw [ceiling_selection, ← extreme_highest, extreme_selection]
        exact (ends.select s threshold).sum_le
  | explosion slot rule inner =>
      exact staysBelow_explosion self.1 (self.2 rfl)
        fun leaf mem => below leaf (leaf_mem_inside_explosion slot rule mem)

/-! ### Dice reach their ceiling -/

/-- On every stream that starts with the script, the leaf is exploded to the given sum and reads
the script to its end. -/
def ExplodesTo (rule : Explosion) (leaf : Node α) (script : List Nat) (sum : Int) : Prop :=
  ∀ (draws : Draws) (position : Nat), Reads draws position script →
    let rolls := rerolls rule.matches? (leaf.roll draws) rule.limit position
    rolls.values.sum = sum ∧ rolls.next = position + script.length

/-- A die that shows one face, which makes it go on, as often as it is rolled again, and then
another face. -/
theorem exists_script_rerolls (slot : α) (d : Die) {again : Int → Bool} {more : Nat}
    (goesOn : again (d.face more) = true) (last limit : Nat) :
    ∃ script : List Nat, ∀ (draws : Draws) (position : Nat), Reads draws position script →
      let rolls := rerolls again ((die slot d).roll draws) limit position
      rolls.values.sum = limit * d.face more + d.face last ∧
        rolls.next = position + script.length := by
  induction limit with
  | zero =>
      refine ⟨[last], fun draws position reads => ?_⟩
      have drawn : draws position = last := by simpa using reads 0 (by simp)
      simp [rerolls, roll_die, drawn]
  | succ limit ih =>
      obtain ⟨script, follows⟩ := ih
      refine ⟨more :: script, fun draws position reads => ?_⟩
      have pieces : Reads draws position ([more] ++ script) := reads
      obtain ⟨first, others⟩ := pieces.append
      have drawn : draws position = more := by simpa using first 0 (by simp)
      obtain ⟨sum, next⟩ := follows draws (position + 1) others
      simp only [rerolls, roll_die, drawn, goesOn, if_true, List.sum_cons] at sum next ⊢
      rw [sum, next, Nat.cast_succ, add_one_mul, List.length_cons]
      omega

/-- A die that shows its greatest explosion as often as it is rolled again, and then its highest
face, adds up to what it can at most. -/
theorem exists_script_die {slot : α} {d : Die} (checked : d.Checked) (rule : Explosion) :
    ∃ script, ExplodesTo rule (die slot d) script ((die slot d).exploded d.highest rule) := by
  obtain ⟨last, lastShown⟩ := Die.exists_face checked .highest
  have highest : d.face last = d.highest := lastShown
  rcases Die.greatestExplosion_mem_or rule d with ⟨mem, explodes⟩ | ⟨zero, stops⟩
  · obtain ⟨more, shown⟩ := (Die.mem_faces_iff checked).mp mem
    rw [← shown] at explodes
    have script := exists_script_rerolls slot d explodes last rule.limit
    rwa [shown, highest] at script
  · refine ⟨[last], fun draws position reads => ?_⟩
    have drawn : draws position = last := by simpa using reads 0 (by simp)
    have once : rule.matches? d.highest = false := stops _ (Die.extreme_mem_faces checked .highest)
    cases rule with
    | mk comparison threshold limit =>
        cases limit <;>
          simp [rerolls, roll_die, drawn, highest, once, exploded, greatestExplosion, zero]

/-- The scripts of several leaves, one after the other, explode all of them. -/
theorem exists_script_explodeAll {rule : Explosion} {leaves : List (Node α)} (sums : Node α → Int)
    (each : ∀ leaf ∈ leaves, ∃ script, ExplodesTo rule leaf script (sums leaf)) :
    ∃ script, ∀ (draws : Draws) (position : Nat), Reads draws position script →
      (explodeAll rule (leaves.map (roll draws)) position).values.sum
        = (leaves.map sums).sum := by
  induction leaves with
  | nil => exact ⟨[], fun _ _ _ => rfl⟩
  | cons leaf rest ih =>
      obtain ⟨script, follows⟩ := each leaf List.mem_cons_self
      obtain ⟨later, others⟩ := ih (List.forall_mem_cons.mp each).2
      refine ⟨script ++ later, fun draws position reads => ?_⟩
      obtain ⟨sum, next⟩ := follows draws position reads.append.1
      have rest := others draws _ (next.symm ▸ reads.append.2)
      simp only [List.map_cons, explodeAll, List.sum_append, List.sum_cons]
      rw [sum, rest]

namespace OfDice

variable {pool : Node α}

theorem not_isExplosion (ofDice : pool.OfDice) :
    ∀ sub ∈ pool.subtrees, sub.isExplosion = false := by
  induction ofDice with
  | die slot checked => simp [subtrees, isExplosion]
  | pool slot _ ih =>
      intro sub mem
      rcases List.mem_cons.mp mem with rfl | inside
      · rfl
      · rw [ofItems, inside_pool] at inside
        obtain ⟨item, itemMem, subMem⟩ := List.mem_flatMap.mp inside
        exact ih item (List.mem_filter.mp itemMem).1 sub subMem

/-- An explosion of dice rolls its ceiling, from whatever position on. -/
theorem exists_roll_eq_ceiling (ofDice : pool.OfDice) {rule : Explosion}
    (explodes : pool.Explodes rule) (heard : α → Bool) (slot : α) (position : Nat) :
    ∃ draws, ((explosion slot rule pool).reply heard draws .roll position).result
      = .ok (explosion slot rule pool).ceiling := by
  have each : ∀ leaf ∈ pool.leaves, ∃ script,
      ExplodesTo rule leaf script (leaf.exploded leaf.ceiling rule) := by
    intro leaf mem
    obtain ⟨slot, d, rfl, -, checked⟩ := ofDice.exists_die mem
    rw [ceiling_die]
    exact exists_script_die checked rule
  obtain ⟨script, follows⟩ := exists_script_explodeAll _ each
  obtain ⟨draws, reads⟩ := exists_reads position script
  refine ⟨draws, ?_⟩
  rw [ofDice.reply_of_reported explodes, roll_explosion, ceiling_explosion]
  exact congrArg Except.ok (follows draws position reads)

end OfDice

/-! ### The number that explosions report -/

/-- An explosion stays between the bounds that it reports, if the ceilings of the explosions in
it, its own included, are not above the number that stands for no bound.  An explosion of dice
does so only then, since it can be rolled as high as its ceiling. -/
theorem explosion_within_maximum {slot : α} {rule : Explosion} {inner : Node α}
    (built : (explosion slot rule inner).Constructed) (heard : α → Bool) (position : Nat) :
    let node := explosion slot rule inner
    (node.Contained →
      (∀ low high, node.reported .lowest = .ok low → node.reported .highest = .ok high →
        low ≤ high) ∧
      ∀ draws value, (node.reply heard draws .roll position).result = .ok value →
        (∀ low, node.reported .lowest = .ok low → low ≤ value) ∧
          ∀ high, node.reported .highest = .ok high → value ≤ high) ∧
    (inner.OfDice →
      (∃ draws, (node.reply heard draws .roll position).result = .ok node.ceiling) ∧
      ((∀ draws value, (node.reply heard draws .roll position).result = .ok value →
          ∀ high, node.reported .highest = .ok high → value ≤ high) ↔
        node.ceiling ≤ unboundedTotal)) := by
  intro node
  have checked := built.checked
  have within : node.Contained → ∀ draws value,
      (node.reply heard draws .roll position).result = .ok value →
        (∀ low, node.reported .lowest = .ok low → low ≤ value) ∧
          ∀ high, node.reported .highest = .ok high → value ≤ high := by
    intro contained draws value rolled
    have below := contained.staysBelow checked draws
    obtain ⟨rfl, -⟩ := reply_eq_ok heard draws checked .roll position rolled
    refine ⟨fun low reported => ?_, fun high reported => ?_⟩
    · rw [eq_of_reported checked .lowest reported]
      exact below.minimum_le position
    · rw [eq_of_reported checked .highest reported]
      exact (below.le_ceiling position).trans below.ceiling_le
  refine ⟨fun contained => ⟨fun low high least greatest => ?_, within contained⟩, fun ofDice => ?_⟩
  · have below := contained.staysBelow checked fun _ => 0
    rw [eq_of_reported checked .lowest least, eq_of_reported checked .highest greatest]
    exact below.minimum_le_ceiling.trans below.ceiling_le
  · have explodes : inner.Explodes rule := checked node (self_mem_subtrees node)
    obtain ⟨draws, reached⟩ := ofDice.exists_roll_eq_ceiling explodes heard slot position
    refine ⟨⟨draws, reached⟩, fun all => ?_, fun below draws value rolled => ?_⟩
    · have reported : node.reported .highest = .ok unboundedTotal :=
        (reported_eq_ok checked .highest).mpr
          ⟨(isReported_explosion slot rule inner).2, (maximum_explosion slot rule inner).symm⟩
      exact all draws node.ceiling reached unboundedTotal reported
    · refine (within (fun sub mem isExplosion => ?_) draws value rolled).2
      rcases List.mem_cons.mp mem with rfl | inside
      · exact below
      · rw [inside_explosion] at inside
        rw [ofDice.not_isExplosion sub inside] at isExplosion
        contradiction

/-- An explosion of a square of an explosion of dice, one of which has a negative and a repeated
face, stays between its bounds; and the explosion of the dice is rolled as high as its ceiling. -/
theorem nested_explosion_within_maximum :
    let dice : Node Unit :=
      .pool () [.die () (.sided 6), .pool () [.die () .fudge, .die () (.custom [-1, 7, 7])]]
    let inside : Node Unit := .explosion () ⟨.greater, 4, 2⟩ dice
    let node : Node Unit :=
      .explosion () ⟨.greater, 30, 1⟩ (.pool () [.arithmetic () .power 2 inside, .die () .fudge])
    node.Constructed ∧ node.Contained ∧
      node.reported .lowest = .ok (-1) ∧ node.reported .highest = .ok unboundedTotal ∧
      (∀ draws value, (node.reply everySlot draws .roll 0).result = .ok value →
        -1 ≤ value ∧ value ≤ unboundedTotal) ∧
      dice.OfDice ∧ (∃ draws, (inside.reply everySlot draws .roll 0).result = .ok 40) := by
  intro dice inside node
  have dieBuilt : (die () (.custom [-1, 7, 7])).Constructed := .custom () [-1, 7, 7] rfl
  have lowerBuilt : (ofItems () [die () .fudge, die () (.custom [-1, 7, 7])]).Constructed :=
    .pool () (by simpa using ⟨.fudge (), dieBuilt⟩)
  have diceBuilt : (ofItems () [die () (.sided 6),
      ofItems () [die () .fudge, die () (.custom [-1, 7, 7])]]).Constructed :=
    .pool () (by simpa using ⟨.sided () 6 rfl, lowerBuilt⟩)
  have insideBuilt : inside.Constructed := .explosion everySlot () ['>'] 4 2 0 diceBuilt rfl
  have squareBuilt : (arithmetic () .power 2 inside).Constructed :=
    .arithmetic () ['^'] 2 insideBuilt rfl
  have poolBuilt : (ofItems () [arithmetic () .power 2 inside, die () .fudge]).Constructed :=
    .pool () (by simpa using ⟨squareBuilt, .fudge ()⟩)
  have bounds : (Node.leaves (.pool () [.arithmetic () .power 2 inside, .die () .fudge])).mapM
      reportedRange = .ok [(0, 85070591730234615847396907784232501249), (-1, 1)] := by decide
  have suits : Explosion.Suits ⟨.greater, 30, 1⟩
      [(0, 85070591730234615847396907784232501249), (-1, 1)] :=
    ⟨by decide, by decide, by decide⟩
  have built : node.Constructed := .explosion everySlot () ['>'] 30 1 0 poolBuilt
    (explosion?_eq_ok.mpr ⟨.greater, rfl, by decide, ⟨_, bounds, suits⟩, rfl⟩)
  have contained : node.Contained := by
    unfold Contained
    decide
  have ofDice : dice.OfDice := by
    have sixSided : OfDice (.die () (.sided 6)) := .die () (by decide : 2 ≤ 6)
    have fudge : OfDice (.die () .fudge) := .die () (by decide : 2 ≤ 3)
    have own : OfDice (.die () (.custom [-1, 7, 7])) := .die () (by decide : 2 ≤ 3)
    have lower : OfDice (.ofItems () [.die () .fudge, .die () (.custom [-1, 7, 7])]) :=
      .pool () (by simpa using ⟨fudge, own⟩)
    have outer : OfDice (.ofItems () [.die () (.sided 6),
        .ofItems () [.die () .fudge, .die () (.custom [-1, 7, 7])]]) :=
      .pool () (by simpa using ⟨sixSided, lower⟩)
    exact outer
  have least : node.reported .lowest = .ok (-1) := by decide
  have greatest : node.reported .highest = .ok unboundedTotal := by decide
  obtain ⟨-, within⟩ := (explosion_within_maximum built everySlot 0).1 contained
  refine ⟨built, contained, least, greatest, fun draws value rolled => ?_, ofDice,
    ((explosion_within_maximum insideBuilt everySlot 0).2 ofDice).1⟩
  obtain ⟨low, high⟩ := within draws value rolled
  exact ⟨low _ least, high _ greatest⟩

/-- A die with more sides than the reported number shows a face above the maximum of its
explosion.  Where so much is added to a die, even the minimum of the explosion is above its
maximum. -/
theorem explosions_pass_their_maximum :
    let sided : Node Unit := .explosion () ⟨.equal, 1, 100⟩ (.die () (.sided 9223372036854775808))
    let raised : Node Unit := .explosion () ⟨.greater, 9223372036854775808, 100⟩
      (.arithmetic () .add 9223372036854775807 (.die () (.sided 2)))
    sided.Constructed ∧
      (sided.reply everySlot (fun _ => 9223372036854775807) .roll 0).result
        = .ok 9223372036854775808 ∧
      sided.reported .highest = .ok 9223372036854775807 ∧
      raised.Constructed ∧ raised.reported .lowest = .ok 9223372036854775808 ∧
      raised.reported .highest = .ok 9223372036854775807 := by
  intro sided raised
  have sidedBuilt : sided.Constructed :=
    .explosion everySlot () ['='] 1 100 0 (.sided () 9223372036854775808 rfl) rfl
  have sumBuilt : (arithmetic () .add 9223372036854775807 (die () (.sided 2))).Constructed :=
    .arithmetic () ['+'] 9223372036854775807 (.sided () 2 rfl) rfl
  have raisedBuilt : raised.Constructed :=
    .explosion everySlot () ['>'] 9223372036854775808 100 0 sumBuilt rfl
  exact ⟨sidedBuilt, by decide, by decide, raisedBuilt, by decide, by decide⟩

end Node

end DicePool
