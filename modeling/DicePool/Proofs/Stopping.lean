/-
Module: DicePool.Proofs.Stopping
Purpose: When the items of an explosion can stop it, and an item that never does.
Main exports: Explosion.exists_extreme_not_matching, Node.ReachesStop, Node.exists_draws_all_stop,
  Workshop.can_stop_of_build, Workshop.square_never_stops
-/
import DicePool.Proofs.Attaining
import DicePool.Proofs.Canonical

/-!
An explosion is accepted only if its items report both bounds and, judging by these, each of them
can roll a value that ends it.  Such a value is then found among the two bounds themselves
(`Explosion.exists_extreme_not_matching`), and so the item can stop the explosion if it really
rolls that bound: `Node.ReachesStop`.

Items without explosions in them do so, unless they take an even power of a base that lies on
both sides of zero.  The bounds that are reported for such a power may be out of its reach, and
then an explosion of it is accepted although nothing can end it: `Workshop.square_never_stops`.
-/

namespace DicePool

variable {α : Type}

/-- Where the check says that an item with these bounds can stop, the rule does not match at
one of the bounds. -/
theorem Explosion.exists_extreme_not_matching {rule : Explosion} {node : Node α}
    (canStop : rule.canStop node.minimum node.maximum = true) :
    ∃ side, rule.matches? (node.extreme side) = false := by
  obtain ⟨comparison, threshold, limit⟩ := rule
  cases comparison with
  | greater =>
      refine ⟨.lowest, decide_eq_false ?_⟩
      exact Int.not_lt.mpr (of_decide_eq_true canStop)
  | less =>
      refine ⟨.highest, decide_eq_false ?_⟩
      exact Int.not_lt.mpr (of_decide_eq_true canStop)
  | equal =>
      -- One of the two bounds differs from the threshold, or they would both be equal to it.
      by_cases low : node.minimum = threshold
      · have high : node.maximum ≠ threshold := by
          rintro high
          simp [Explosion.canStop, low, high] at canStop
        exact ⟨.highest, decide_eq_false high⟩
      · exact ⟨.lowest, decide_eq_false low⟩

namespace Node

/-- The node reports a bound at which the rule does not match, and really rolls it. -/
def ReachesStop (node : Node α) (rule : Explosion) : Prop :=
  ∃ side bound, node.reported side = .ok bound ∧ rule.matches? bound = false ∧ node.Reaches side

/-- In a tree without explosions that reports both bounds, all arithmetic does so. -/
theorem isReported_of_arithmetic_mem {node : Node α}
    (noExplosion : ∀ sub ∈ node.subtrees, sub.isExplosion = false)
    (reports : ∀ side, node.isReported side = true) {slot : α} {operation : Operation}
    {value : Nat} {base : Node α} (mem : arithmetic slot operation value base ∈ node.subtrees)
    (side : Extreme) : (arithmetic slot operation value base).isReported side = true := by
  induction node using induction_inside with
  | step node ih =>
      have below : ∀ sub ∈ node.inside, (∀ side, sub.isReported side = true) →
          arithmetic slot operation value base ∈ sub.subtrees →
          (arithmetic slot operation value base).isReported side = true :=
        fun sub subMem => ih sub subMem fun deeper deeperMem =>
          noExplosion deeper (subtrees_subset (List.mem_cons_of_mem node subMem) deeperMem)
      rcases List.mem_cons.mp mem with rfl | inside
      · exact reports side
      cases node with
      | die slot d => simp at inside
      | pool slot items =>
          rw [inside_pool] at inside
          obtain ⟨item, itemMem, deeper⟩ := List.mem_flatMap.mp inside
          refine below item (item_mem_inside_pool slot itemMem) (fun side => ?_) deeper
          have reported := reports side
          rw [isReported_pool, Bool.and_eq_true] at reported
          exact isReported_of_mem reported.1 itemMem
      | arithmetic slot operation value inner =>
          rw [inside_arithmetic] at inside
          refine below inner (by simp) (fun side => ?_) inside
          have reported := reports side
          rw [isReported_arithmetic] at reported
          split at reported
          · simp only [Bool.and_eq_true] at reported
            exact reported.1.1
          · simp only [Bool.and_eq_true] at reported
            cases side
            · exact reported.1.1.1
            · exact reported.1.1.2
      | selection slot s threshold poolSlot items =>
          rw [inside_selection, subtrees, inside_pool] at inside
          rcases List.mem_cons.mp inside with same | inside
          · cases same
          obtain ⟨item, itemMem, deeper⟩ := List.mem_flatMap.mp inside
          refine below item (item_mem_inside_selection slot s threshold poolSlot itemMem)
            (fun side => ?_) deeper
          have reported := reports side
          rw [isReported_selection, Bool.and_eq_true] at reported
          exact isReported_of_mem reported.1 itemMem
      | explosion slot rule inner =>
          have absurdity := noExplosion _ (self_mem_subtrees _)
          simp [isExplosion] at absurdity

/-- A tree without explosions that reports both bounds has no even power of a base on both sides of
zero, if it has none with a positive exponent: of a zeroth power the base is written down. -/
theorem oneSided_of_reports {node : Node α}
    (noExplosion : ∀ sub ∈ node.subtrees, sub.isExplosion = false)
    (reports : ∀ side, node.isReported side = true)
    (apart : ∀ slot value base, arithmetic slot .power value base ∈ node.subtrees →
      0 < value → Even value → base.isReported .lowest = true → base.isReported .highest = true →
        ¬(base.minimum < 0 ∧ 0 < base.maximum)) : node.OneSided := by
  intro slot value base mem even low high below above
  by_cases zero : value = 0
  · refine ⟨zero, ?_⟩
    have written := isReported_of_arithmetic_mem noExplosion reports mem .highest
    have notMonotone : Operation.isMonotone .power value = false := by
      simp [Operation.isMonotone, Nat.even_iff.mp even]
    simp only [isReported_arithmetic, notMonotone, Bool.false_eq_true, if_false,
      Bool.and_eq_true, evenBase] at written
    have end' := written.1.2
    split at end'
    · exact ⟨.lowest, end'⟩
    · exact ⟨.highest, end'⟩
  · exact absurd ⟨below, above⟩
      (apart slot value base mem (Nat.pos_of_ne_zero zero) even low high)

/-- An item that can stop by its bounds does so, if it is without explosions and without even
powers of a base that lies on both sides of zero. -/
theorem reachesStop_of_no_explosion {rule : Explosion} {leaf : Node α}
    (checked : ∀ sub ∈ leaf.subtrees, sub.Checked)
    (reports : ∀ side, leaf.isReported side = true)
    (canStop : rule.canStop leaf.minimum leaf.maximum = true)
    (noExplosion : ∀ sub ∈ leaf.subtrees, sub.isExplosion = false) (oneSided : leaf.OneSided) :
    leaf.ReachesStop rule := by
  obtain ⟨side, stops⟩ := Explosion.exists_extreme_not_matching canStop
  exact ⟨side, leaf.extreme side, (reported_eq_ok checked side).mpr ⟨reports side, rfl⟩, stops,
    reaches_of_no_explosion noExplosion oneSided (reports side)⟩

/-- An item that reaches a stop rolls it on the streams that start with some script. -/
theorem ReachesStop.exists_script {rule : Explosion} {leaf : Node α}
    (reaches : leaf.ReachesStop rule) (checked : ∀ sub ∈ leaf.subtrees, sub.Checked) :
    ∃ value, (∃ script, leaf.Follows script value) ∧ rule.matches? value = false := by
  obtain ⟨side, bound, reported, stops, reached⟩ := reaches
  obtain rfl := eq_of_reported checked side reported
  exact ⟨leaf.extreme side, reached.exists_script checked, stops⟩

/-- An item that reaches a stop rolls it on some stream. -/
theorem ReachesStop.exists_reply {rule : Explosion} {leaf : Node α}
    (reaches : leaf.ReachesStop rule) (checked : ∀ sub ∈ leaf.subtrees, sub.Checked)
    (heard : α → Bool) (position : Nat) :
    ∃ draws value, (leaf.reply heard draws .roll position).result = .ok value ∧
      rule.matches? value = false := by
  obtain ⟨side, bound, reported, stops, reached⟩ := reaches
  obtain rfl := eq_of_reported checked side reported
  obtain ⟨draws, answered⟩ := reached.exists_reply checked heard position
  exact ⟨draws, leaf.extreme side, answered, stops⟩

/-- If every item reaches a stop, there is one stream on which every item is rolled once and
none of the values makes the explosion go on. -/
theorem exists_draws_all_stop {rule : Explosion} {leaves : List (Node α)}
    (checked : ∀ leaf ∈ leaves, ∀ sub ∈ leaf.subtrees, sub.Checked)
    (reaches : ∀ leaf ∈ leaves, leaf.ReachesStop rule) (position : Nat) :
    ∃ draws values,
      ((Evaluation.exploded rule (leaves.map (askRoll (.memory everySlot) draws))).remembered
        position).result = .ok values ∧
      values.length = leaves.length ∧ ∀ value ∈ values, rule.matches? value = false := by
  have each : ∀ leaf ∈ leaves, ∃ value, (∃ script, leaf.Follows script value) ∧
      rule.matches? value = false :=
    fun leaf mem => (reaches leaf mem).exists_script (checked leaf mem)
  choose! stop each using each
  obtain ⟨script, follows⟩ := exists_script_each stop fun leaf mem => (each leaf mem).1
  obtain ⟨draws, reads⟩ := exists_reads position script
  obtain ⟨values, -, written⟩ := follows draws position reads
  have stops : ∀ value ∈ leaves.map stop, rule.matches? value = false := by
    intro value mem
    obtain ⟨leaf, leafMem, rfl⟩ := List.mem_map.mp mem
    exact (each leaf leafMem).2
  have once : explodeAll rule (leaves.map (roll draws)) position
      = rollAll (leaves.map (roll draws)) position := by
    refine explodeAll_eq_rollAll ?_
    rwa [values]
  have comes := comes_exploded rule
    (comes_inRow fun leaf mem => comes_roll draws (checked leaf mem)) position
  rw [once] at comes
  refine ⟨draws, leaves.map stop, ?_, List.length_map stop, stops⟩
  rw [Evaluation.remembered, comes.finishes written, values]

end Node

namespace Workshop

open Node

/-- An accepted explosion can stop, as far as its items reach a stop.  All items do so that are
without explosions and without positive even powers of a base that is reported on both sides of
zero.  An item that does so rolls, on some stream, a value that ends the explosion; and if all of
them do, there is a stream on which each is rolled once only. -/
theorem can_stop_of_build {shop : Workshop} {s : Text} {node : Node Unit}
    (built : (shop.build s).result = .ok node) :
    ∀ slot rule inner, explosion slot rule inner ∈ node.subtrees →
      (∀ leaf ∈ inner.leaves, (∀ sub ∈ leaf.subtrees, sub.isExplosion = false) →
        (∀ slot value base, arithmetic slot .power value base ∈ leaf.subtrees →
          0 < value → Even value → ∀ low high, base.reported .lowest = .ok low →
            base.reported .highest = .ok high → ¬(low < 0 ∧ 0 < high)) →
        leaf.ReachesStop rule) ∧
      (∀ leaf ∈ inner.leaves, leaf.ReachesStop rule → ∀ heard position,
        ∃ draws value, (leaf.reply heard draws .roll position).result = .ok value ∧
          rule.matches? value = false) ∧
      ((∀ leaf ∈ inner.leaves, leaf.ReachesStop rule) → ∀ position,
        ∃ draws values,
          ((Evaluation.exploded rule
            (inner.leaves.map (askRoll (.memory everySlot) draws))).remembered position).result
              = .ok values ∧
          values.length = inner.leaves.length ∧
            ∀ value ∈ values, rule.matches? value = false) := by
  intro slot rule inner mem
  have treeChecked := shop.checked_of_build built
  have explodes : inner.Explodes rule := treeChecked _ mem
  have checked : ∀ leaf ∈ inner.leaves, ∀ sub ∈ leaf.subtrees, sub.Checked := by
    intro leaf leafMem sub subMem
    have inside := leaf_mem_inside_explosion slot rule leafMem
    exact treeChecked sub
      (subtrees_subset mem (subtrees_subset (List.mem_cons_of_mem _ inside) subMem))
  refine ⟨fun leaf leafMem noExplosion apart => ?_, fun leaf leafMem reaches heard position =>
    reaches.exists_reply (checked leaf leafMem) heard position, exists_draws_all_stop checked⟩
  have reports := explodes.reports leaf leafMem
  have oneSided : leaf.OneSided := by
    refine oneSided_of_reports noExplosion reports ?_
    refine fun slot value base baseMem above even low high => ?_
    have baseChecked : ∀ sub ∈ base.subtrees, sub.Checked := fun sub subMem =>
      checked leaf leafMem sub
        (subtrees_subset baseMem (subtrees_subset (List.mem_cons_of_mem _ (by simp)) subMem))
    exact apart slot value base baseMem above even _ _
      ((reported_eq_ok baseChecked _).mpr ⟨low, rfl⟩)
      ((reported_eq_ok baseChecked _).mpr ⟨high, rfl⟩)
  exact reachesStop_of_no_explosion (checked leaf leafMem) reports
    (explodes.suits.canStop leaf.range (List.mem_map_of_mem leafMem)) noExplosion oneSided

/-- In `((d4!>3)*2)!>7` the item is itself made of an explosion, which cannot reach an upper
end; but on a one the inner explosion stops, and the double of one stops the outer one. -/
theorem doubled_explosion_can_stop :
    let shop : Workshop := ⟨some ['6'], 100, false⟩
    let s := ['(', '(', 'd', '4', '!', '>', '3', ')', '*', '2', ')', '!', '>', '7']
    let rule : Explosion := ⟨.greater, 7, 100⟩
    let once : Node Unit := .explosion () ⟨.greater, 3, 100⟩ (.pool () [.die () (.sided 4)])
    let doubled : Node Unit := .arithmetic () .multiply 2 once
    let node : Node Unit := .explosion () rule doubled
    (shop.build s).result = .ok node ∧ node ∈ node.subtrees ∧ doubled ∈ doubled.leaves ∧
      doubled.ReachesStop rule ∧
      ∃ draws value, (doubled.reply everySlot draws .roll 0).result = .ok value ∧
        rule.matches? value = false := by
  intro shop s rule once doubled node
  have built : (shop.build s).result = .ok node := shop.build_eq_ok.mpr ⟨_, rfl, rfl, by decide⟩
  have mem : node ∈ node.subtrees := self_mem_subtrees node
  have leafMem : doubled ∈ doubled.leaves := by simp [doubled, leaves]
  have single : (Node.pool () [Node.die () (.sided 4)]).leaves = [Node.die () (.sided 4)] := rfl
  have reachesOnce : once.Reaches .lowest := by
    refine .explosion () ?_ ?_ (by decide)
    · rw [single]
      simpa using Reaches.die () (.sided 4) (by decide)
    · rw [single]
      decide
  have reported : doubled.reported .lowest = .ok 2 := by decide
  have reaches : doubled.ReachesStop rule :=
    ⟨.lowest, 2, reported, by decide, .arithmetic () reachesOnce rfl (by decide)⟩
  exact ⟨built, mem, leafMem, reaches,
    (can_stop_of_build built () rule doubled mem).2.1 doubled leafMem reaches everySlot 0⟩

/-- The square of a die with the faces `-1` and `1` is always one, but its bounds are reported
as zero and one.  So `(d[-1,1]^2)!` is built, and whatever is drawn, its item never rolls a
value that would end the explosion. -/
theorem square_never_stops :
    let shop : Workshop := ⟨some ['6'], 100, false⟩
    let s := ['(', 'd', '[', '-', '1', ',', '1', ']', '^', '2', ')', '!']
    let rule : Explosion := ⟨.equal, 1, 100⟩
    let square : Node Unit := .arithmetic () .power 2 (.pool () [.die () (.custom [-1, 1])])
    let node : Node Unit := .explosion () rule square
    (shop.build s).result = .ok node ∧ node ∈ node.subtrees ∧ square ∈ square.leaves ∧
      ∀ heard draws position, (square.reply heard draws .roll position).result = .ok 1 ∧
        rule.matches? 1 = true := by
  intro shop s rule square node
  have built : (shop.build s).result = .ok node := shop.build_eq_ok.mpr ⟨_, rfl, rfl, by decide⟩
  refine ⟨built, self_mem_subtrees node, by simp [square, leaves], ?_⟩
  intro heard draws position
  have checked : ∀ sub ∈ square.subtrees, sub.Checked := by
    intro sub mem
    have inside : square ∈ node.inside := by
      rw [inside_explosion]
      exact self_mem_subtrees square
    exact shop.checked_of_build built sub (subtrees_subset (List.mem_cons_of_mem _ inside) mem)
  have face : ∀ draw, (Die.custom [-1, 1]).face draw = -1 ∨ (Die.custom [-1, 1]).face draw = 1 := by
    intro draw
    simpa using Die.face_mem (show (Die.custom [-1, 1]).Checked from Nat.le_refl 2) draw
  have rolled : (square.roll draws position).value = 1 ∧
      (square.roll draws position).entries.all Entry.isWritten = true := by
    simp only [square, roll_arithmetic, roll_pool, roll_die, rollAll, summed, List.map_cons,
      List.map_nil]
    rcases face (draws position) with shown | shown
    · rw [shown]
      exact ⟨rfl, by decide⟩
    · rw [shown]
      exact ⟨rfl, by decide⟩
  refine ⟨?_, by decide⟩
  rw [reply_of_written heard draws checked .roll position rolled.2]
  exact congrArg Except.ok rolled.1

end Workshop

end DicePool
