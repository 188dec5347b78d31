/-
Module: DicePool.Proofs.Attaining
Purpose: Without explosions the reported bounds are rolled on some streams.
Main exports: Reads, Die.exists_face, Node.Reaches, Node.Reaches.exists_script,
  Node.reaches_of_no_explosion, Node.exists_roll_eq_reported, Node.zeroth_power_never_rolls_minimum
-/
import Mathlib.Data.List.GetD
import DicePool.Proofs.Bounds

/-!
Every die of a tree without explosions is rolled exactly once, so a script with one number
for each die determines a roll.  Each part of a tree has a script of its own for the end
that is wanted of it, and the scripts of the parts of a pool are put one after the other.

Which end is wanted of a part depends on what is above it: an even power may be greatest
where its base is least.  `Node.Reaches` says of a node and an end that this can be followed
down to the dice.  Only where the base of an even power lies on both sides of zero is the
least power no power of an end of the range, and such powers are left out.

The lines of such a roll are those of the bounds, and so they can be written.  The exception are
powers with the exponent zero: their bounds are one without a look at the base, while a roll writes
the base down.  `Node.zeroth_power_never_rolls_minimum` has no rolls at all for that reason.
-/

namespace DicePool

variable {α : Type}

/-- From the position on, the stream starts with these numbers. -/
def Reads (draws : Draws) (position : Nat) (script : List Nat) : Prop :=
  ∀ index < script.length, draws (position + index) = script.getD index 0

theorem Reads.append {draws : Draws} {position : Nat} {script later : List Nat}
    (reads : Reads draws position (script ++ later)) :
    Reads draws position script ∧ Reads draws (position + script.length) later := by
  constructor
  · intro index inBounds
    have same := reads index (by rw [List.length_append]; omega)
    rwa [List.getD_append _ _ _ _ inBounds] at same
  · intro index inBounds
    have same := reads (script.length + index) (by rw [List.length_append]; omega)
    rw [List.getD_append_right _ _ _ _ (by omega)] at same
    simpa [Nat.add_assoc] using same

/-- Every script is the beginning of some stream. -/
theorem exists_reads (position : Nat) (script : List Nat) :
    ∃ draws : Draws, Reads draws position script :=
  ⟨fun index => script.getD (index - position) 0, fun index _ => by simp⟩

/-- Every die shows each of its extremes for some draw. -/
theorem Die.exists_face {d : Die} (checked : d.Checked) (side : Extreme) :
    ∃ draw, d.face draw = d.extreme side := by
  cases d with
  | sided sides =>
      simp only [Checked, size] at checked
      cases side with
      | lowest => exact ⟨0, by simp [face, extreme, lowest]⟩
      | highest =>
          refine ⟨sides - 1, ?_⟩
          simp only [face, extreme, highest, Nat.mod_eq_of_lt (show sides - 1 < sides by omega)]
          omega
  | percentile =>
      cases side with
      | lowest => exact ⟨0, by decide⟩
      | highest => exact ⟨99, by decide⟩
  | fudge =>
      cases side with
      | lowest => exact ⟨0, by decide⟩
      | highest => exact ⟨2, by decide⟩
  | custom faces =>
      have nonempty : faces ≠ [] := by
        rintro rfl
        simp [Checked, size] at checked
      have mem : (custom faces).extreme side ∈ faces := by
        cases side with
        | lowest =>
            simp only [extreme, lowest, List.min?_eq_some_min nonempty, Option.getD_some]
            exact List.min_mem nonempty
        | highest =>
            simp only [extreme, highest, List.max?_eq_some_max nonempty, Option.getD_some]
            exact List.max_mem nonempty
      obtain ⟨index, inBounds, same⟩ := List.getElem_of_mem mem
      refine ⟨index, ?_⟩
      simp [face, Nat.mod_eq_of_lt inBounds, List.getD_eq_getElem?_getD, inBounds, same]

/-- Where no value explodes, an explosion rolls each once, like a pool. -/
theorem explodeAll_eq_rollAll {rule : Explosion} {rollers : List (Roller α)} {position : Nat}
    (stops : ∀ value ∈ (rollAll rollers position).values, rule.matches? value = false) :
    explodeAll rule rollers position = rollAll rollers position := by
  induction rollers generalizing position with
  | nil => rfl
  | cons roller rest ih =>
      simp only [rollAll, List.mem_cons, forall_eq_or_imp] at stops
      have once : rerolls rule.matches? roller rule.limit position
          = ⟨[(roller position).value], (roller position).next, (roller position).entries⟩ := by
        cases rule.limit <;> simp [rerolls, stops.1]
      simp [explodeAll, rollAll, once, ih stops.2]

namespace Node

/-- On every stream that starts with the script, the node rolls the given value and reads the
script to its end, and the lines of all steps can be written. -/
def Follows (node : Node α) (script : List Nat) (value : Int) : Prop :=
  ∀ (draws : Draws) (position : Nat), Reads draws position script →
    (node.roll draws position).value = value ∧
      (node.roll draws position).next = position + script.length ∧
      (node.roll draws position).entries.all Entry.isWritten = true

/-- The scripts of several nodes, one after the other, are a script of all of them. -/
theorem exists_script_each {items : List (Node α)} (values : Node α → Int)
    (each : ∀ item ∈ items, ∃ script, item.Follows script (values item)) :
    ∃ script, ∀ (draws : Draws) (position : Nat), Reads draws position script →
      (rollAll (items.map (roll draws)) position).values = items.map values ∧
        (rollAll (items.map (roll draws)) position).next = position + script.length ∧
        (rollAll (items.map (roll draws)) position).entries.all Entry.isWritten = true := by
  induction items with
  | nil => exact ⟨[], fun _ _ _ => ⟨rfl, rfl, rfl⟩⟩
  | cons item rest ih =>
      obtain ⟨script, follows⟩ := each item (by simp)
      obtain ⟨later, others⟩ := ih fun item mem => each item (by simp [mem])
      refine ⟨script ++ later, fun draws position reads => ?_⟩
      obtain ⟨value, next, written⟩ := follows draws position reads.append.1
      obtain ⟨values, last, writtenOthers⟩ := others draws _ (next.symm ▸ reads.append.2)
      simp only [List.map_cons, rollAll]
      refine ⟨by rw [value, values], ?_, by rw [List.all_append, written, writtenOthers]; rfl⟩
      rw [last, next, List.length_append]
      omega

/-- A step is written if its line can be. -/
theorem all_isWritten_append_step {entries : List (Entry α)}
    (written : entries.all Entry.isWritten = true) {entry : Entry α}
    (writable : entry.line.isWritable = true) :
    (entries ++ [entry]).all Entry.isWritten = true := by
  simp [written, Entry.isWritten, writable]

/-- A script that brings the inner node to an end of its range brings arithmetic on it to
the wanted end, if that end comes from an end of the inner range. -/
theorem Follows.arithmetic {slot : α} {operation : Operation} {value : Nat} {inner : Node α}
    {script : List Nat} {lhs result : Int} (follows : inner.Follows script lhs)
    (same : operation.apply lhs value = result)
    (writable : (Line.calculation lhs operation value).isWritable = true) :
    (Node.arithmetic slot operation value inner).Follows script result := by
  intro draws position reads
  obtain ⟨base, next, written⟩ := follows draws position reads
  rw [roll_arithmetic, base]
  exact ⟨same, next, all_isWritten_append_step written writable⟩

/-- Either end of a power with an even exponent is its result for one of the ends of the inner
range, and the line with that end can be written if the bound at this end is reported. -/
theorem exists_extreme_even_power {side : Extreme} {slot : α} {value : Nat} {inner : Node α}
    (even : Even value)
    (oneSided : inner.isReported .lowest = true → inner.isReported .highest = true →
      inner.minimum < 0 → 0 < inner.maximum →
        value = 0 ∧ ∃ wanted, Numeral.isWritable (inner.extreme wanted) = true)
    (reported : (arithmetic slot .power value inner).isReported side = true) :
    ∃ wanted : Extreme,
      Operation.power.apply (inner.extreme wanted) value
          = (arithmetic slot .power value inner).extreme side ∧
        (Line.calculation (inner.extreme wanted) .power value).isWritable = true := by
  have notMonotone : Operation.isMonotone .power value = false := by
    simp [Operation.isMonotone, Nat.even_iff.mp even]
  rw [isReported_arithmetic, notMonotone] at reported
  simp only [Bool.false_eq_true, if_false, Bool.and_eq_true] at reported
  obtain ⟨⟨⟨low, high⟩, base⟩, exponent⟩ := reported
  rw [extreme_arithmetic, notMonotone, if_neg (by simp)]
  simp only [Line.isWritable, exponent, Bool.and_true]
  by_cases straddles : inner.minimum < 0 ∧ 0 < inner.maximum
  · obtain ⟨rfl, wanted, writable⟩ := oneSided low high straddles.1 straddles.2
    exact ⟨wanted, by simp [Operation.apply, Operation.raise_eq_pow], writable⟩
  · rcases evenBase_eq_or side straddles with least | greatest
    · rw [least] at base ⊢
      exact ⟨.lowest, rfl, base⟩
    · rw [greatest] at base ⊢
      exact ⟨.highest, rfl, base⟩

/-- The node rolls what it reports at one end, for a reason that lies in its parts, and all lines of
such a roll can be written. Of an explosion this can be so only at the lower end, where no leaf may
explode. -/
inductive Reaches : Node α → Extreme → Prop where
  | die {side : Extreme} (slot : α) (d : Die)
      (writable : (Line.sum [d.extreme side]).isWritable = true) : Reaches (.die slot d) side
  | pool {side : Extreme} (slot : α) {items : List (Node α)}
      (each : ∀ item ∈ items, Reaches item side)
      (writable : (Line.sum (items.map (extreme side))).isWritable = true) :
      Reaches (.pool slot items) side
  | arithmetic {side wanted : Extreme} (slot : α) {operation : Operation} {value : Nat}
      {inner : Node α} (base : Reaches inner wanted)
      (same : operation.apply (inner.extreme wanted) value
        = (Node.arithmetic slot operation value inner).extreme side)
      (writable : (Line.calculation (inner.extreme wanted) operation value).isWritable = true) :
      Reaches (.arithmetic slot operation value inner) side
  | selection {side : Extreme} (slot : α) (s : Selection) (threshold : Nat) (poolSlot : α)
      {items : List (Node α)} (each : ∀ item ∈ items, Reaches item side)
      (writable : (Line.sum (s.select threshold (items.map (extreme side)))).isWritable = true) :
      Reaches (.selection slot s threshold poolSlot items) side
  | explosion (slot : α) {rule : Explosion} {inner : Node α}
      (each : ∀ leaf ∈ inner.leaves, Reaches leaf .lowest)
      (stops : ∀ leaf ∈ inner.leaves, rule.matches? (leaf.extreme .lowest) = false)
      (writable : (Line.sum (inner.leaves.map (extreme .lowest))).isWritable = true) :
      Reaches (.explosion slot rule inner) .lowest

/-- What a node reaches, it rolls on the streams that start with some script. -/
theorem Reaches.exists_script {node : Node α} {side : Extreme} (reaches : node.Reaches side)
    (checked : ∀ sub ∈ node.subtrees, sub.Checked) :
    ∃ script, node.Follows script (node.extreme side) := by
  -- What is checked of the tree is checked of the trees of the nodes inside.
  have below : ∀ {node sub : Node α}, sub ∈ node.inside → (∀ sub ∈ node.subtrees, sub.Checked) →
      ∀ deeper ∈ sub.subtrees, deeper.Checked := by
    intro node sub mem checked deeper deeperMem
    exact checked deeper (subtrees_subset (List.mem_cons_of_mem node mem) deeperMem)
  induction reaches with
  | @die side slot d writable =>
      obtain ⟨draw, shown⟩ := Die.exists_face (checked _ (self_mem_subtrees _)) side
      refine ⟨[draw], fun draws position reads => ?_⟩
      have drawn : draws position = draw := by simpa using reads 0 (by simp)
      rw [roll_die, extreme_die, drawn, shown]
      exact ⟨rfl, rfl, by simp [Entry.isWritten, writable]⟩
  | @pool side slot items each writable ih =>
      obtain ⟨script, follows⟩ := exists_script_each (extreme side)
        fun item mem => ih item mem (below (item_mem_inside_pool slot mem) checked)
      refine ⟨script, fun draws position reads => ?_⟩
      obtain ⟨values, next, written⟩ := follows draws position reads
      rw [roll_pool, extreme_pool, values]
      exact ⟨rfl, next, all_isWritten_append_step written writable⟩
  | arithmetic slot base same writable ih =>
      obtain ⟨script, follows⟩ := ih (below (by simp) checked)
      exact ⟨script, follows.arithmetic same writable⟩
  | @selection side slot s threshold poolSlot items each writable ih =>
      obtain ⟨script, follows⟩ := exists_script_each (extreme side) fun item mem =>
        ih item mem (below (item_mem_inside_selection slot s threshold poolSlot mem) checked)
      refine ⟨script, fun draws position reads => ?_⟩
      obtain ⟨values, next, written⟩ := follows draws position reads
      rw [roll_selection, extreme_selection, values]
      exact ⟨rfl, next, all_isWritten_append_step written writable⟩
  | @explosion slot rule inner each stops writable ih =>
      obtain ⟨script, follows⟩ := exists_script_each (extreme .lowest) fun leaf mem =>
        ih leaf mem (below (leaf_mem_inside_explosion slot rule mem) checked)
      refine ⟨script, fun draws position reads => ?_⟩
      obtain ⟨values, next, written⟩ := follows draws position reads
      have once : explodeAll rule (inner.leaves.map (roll draws)) position
          = rollAll (inner.leaves.map (roll draws)) position := by
        refine explodeAll_eq_rollAll ?_
        rw [values]
        simpa using stops
      rw [roll_explosion, once, extreme_lowest, minimum_explosion, ← extreme_lowest,
        ← sum_extreme_leaves, values]
      exact ⟨rfl, next, all_isWritten_append_step written writable⟩

/-- No even power in the tree has a base that is reported on both sides of zero, unless the exponent
is zero and one end of the base can be written. -/
def OneSided (node : Node α) : Prop :=
  ∀ slot value inner, arithmetic slot .power value inner ∈ node.subtrees → Even value →
    inner.isReported .lowest = true → inner.isReported .highest = true →
      inner.minimum < 0 → 0 < inner.maximum →
        value = 0 ∧ ∃ wanted, Numeral.isWritable (inner.extreme wanted) = true

theorem isReported_of_mem {items : List (Node α)} {side : Extreme} {item : Node α}
    (all : items.all (isReported side) = true) (mem : item ∈ items) : item.isReported side = true :=
  List.all_eq_true.mp all item mem

/-- Without explosions and without even powers of a base that lies on both sides of zero, a
node reaches the ends that it reports. -/
theorem reaches_of_no_explosion {node : Node α}
    (noExplosion : ∀ sub ∈ node.subtrees, sub.isExplosion = false) (oneSided : node.OneSided)
    {side : Extreme} (reported : node.isReported side = true) : node.Reaches side := by
  induction node using induction_inside generalizing side with
  | step node ih =>
      -- The conditions hold of everything inside, so the induction speaks of it.
      have reached : ∀ sub ∈ node.inside, ∀ side,
          sub.isReported side = true → sub.Reaches side := by
        intro sub mem side
        have subset := subtrees_subset (List.mem_cons_of_mem node mem)
        exact ih sub mem (fun deeper mem => noExplosion deeper (subset mem))
          (fun slot value inner mem => oneSided slot value inner (subset mem))
      cases node with
      | die slot d =>
          rw [isReported_die] at reported
          exact .die slot d (by simpa [Line.isWritable] using reported)
      | pool slot items =>
          rw [isReported_pool, Bool.and_eq_true] at reported
          exact .pool slot (fun item mem => reached item (item_mem_inside_pool slot mem) side
            (isReported_of_mem reported.1 mem)) reported.2
      | arithmetic slot operation value inner =>
          cases monotone : operation.isMonotone value with
          | true =>
              have same : operation.apply (inner.extreme side) value
                  = (arithmetic slot operation value inner).extreme side := by
                rw [extreme_arithmetic, if_pos monotone]
              rw [isReported_arithmetic, if_pos monotone, Bool.and_eq_true, Bool.and_eq_true]
                at reported
              exact .arithmetic slot (reached inner (by simp) side reported.1.1) same
                (by simp [Line.isWritable, reported])
          | false =>
              obtain ⟨rfl, even⟩ := Operation.even_of_not_isMonotone monotone
              obtain ⟨wanted, same, writable⟩ := exists_extreme_even_power even
                (oneSided slot value inner (self_mem_subtrees _) even) reported
              rw [isReported_arithmetic, monotone] at reported
              simp only [Bool.false_eq_true, if_false, Bool.and_eq_true] at reported
              have both : inner.isReported wanted = true := by
                cases wanted
                · exact reported.1.1.1
                · exact reported.1.1.2
              exact .arithmetic slot (reached inner (by simp) wanted both) same writable
      | selection slot s threshold poolSlot items =>
          rw [isReported_selection, Bool.and_eq_true] at reported
          exact .selection slot s threshold poolSlot (fun item mem =>
            reached item (item_mem_inside_selection slot s threshold poolSlot mem) side
              (isReported_of_mem reported.1 mem)) reported.2
      | explosion slot rule inner =>
          have absurdity := noExplosion _ (self_mem_subtrees _)
          simp [isExplosion] at absurdity

/-- What a node reaches, it rolls on some stream, from whatever position on. -/
theorem Reaches.exists_reply {node : Node α} {side : Extreme} (reaches : node.Reaches side)
    (checked : ∀ sub ∈ node.subtrees, sub.Checked) (heard : α → Bool) (position : Nat) :
    ∃ draws, (node.reply heard draws .roll position).result = .ok (node.extreme side) := by
  obtain ⟨script, follows⟩ := reaches.exists_script checked
  obtain ⟨draws, reads⟩ := exists_reads position script
  obtain ⟨value, -, written⟩ := follows draws position reads
  refine ⟨draws, ?_⟩
  rw [reply_of_written heard draws checked .roll position written]
  exact congrArg Except.ok value

/-- In a tree without explosions a bound that the node reports is rolled on some stream, from
whatever position on, if no even power has a base that is reported on both sides of zero. With the
exponent zero there may be such a base, if one of its bounds can be written. -/
theorem exists_roll_eq_reported {node : Node α} (built : node.Constructed)
    (noExplosion : ∀ sub ∈ node.subtrees, sub.isExplosion = false)
    (oneSided : ∀ slot value inner, arithmetic slot .power value inner ∈ node.subtrees →
      Even value → ∀ low high, inner.reported .lowest = .ok low →
        inner.reported .highest = .ok high → low < 0 → 0 < high →
          value = 0 ∧ (Numeral.isWritable low = true ∨ Numeral.isWritable high = true))
    (heard : α → Bool) (position : Nat) {side : Extreme} {bound : Int}
    (reported : node.reported side = .ok bound) :
    ∃ draws, (node.reply heard draws .roll position).result = .ok bound := by
  have oneSided' : node.OneSided := by
    intro slot value inner mem even low high below above
    have checked : ∀ sub ∈ inner.subtrees, sub.Checked := fun sub subMem =>
      built.checked sub (subtrees_subset mem
        (subtrees_subset (List.mem_cons_of_mem _ (by simp)) subMem))
    obtain ⟨zero, writable⟩ := oneSided slot value inner mem even inner.minimum inner.maximum
      ((reported_eq_ok checked _).mpr ⟨low, rfl⟩) ((reported_eq_ok checked _).mpr ⟨high, rfl⟩)
      below above
    refine ⟨zero, ?_⟩
    rcases writable with least | greatest
    · exact ⟨.lowest, least⟩
    · exact ⟨.highest, greatest⟩
  obtain ⟨written, rfl⟩ := (reported_eq_ok built.checked side).mp reported
  exact (reaches_of_no_explosion noExplosion oneSided' written).exists_reply built.checked heard
    position

/-- The square of a base below zero falls, so the kept square of `DF-2` is least where its
base is greatest. -/
theorem kept_square_attains_bounds :
    let base : Node Unit := .arithmetic () .subtract 2 (.die () .fudge)
    let node : Node Unit :=
      .selection () .keepHighest 1 () [.arithmetic () .power 2 base, .die () (.sided 4)]
    node.Constructed ∧ (∀ sub ∈ node.subtrees, sub.isExplosion = false) ∧
      (∀ slot value inner, arithmetic slot .power value inner ∈ node.subtrees →
        Even value → ∀ low high, inner.reported .lowest = .ok low →
          inner.reported .highest = .ok high → low < 0 → 0 < high →
            value = 0 ∧ (Numeral.isWritable low = true ∨ Numeral.isWritable high = true)) ∧
      node.reported .lowest = .ok 1 ∧ node.reported .highest = .ok 9 ∧
      (∃ draws, (node.reply everySlot draws .roll 0).result = .ok 1) ∧
        ∃ draws, (node.reply everySlot draws .roll 0).result = .ok 9 := by
  intro base node
  have baseBuilt : base.Constructed :=
    .arithmetic () ['-'] 2 (.fudge ()) rfl
  have squareBuilt : (arithmetic () .power 2 base).Constructed :=
    .arithmetic () ['^'] 2 baseBuilt rfl
  have poolBuilt : (ofItems () [arithmetic () .power 2 base, die () (.sided 4)]).Constructed :=
    .pool () (by simpa using ⟨squareBuilt, .sided () 4 rfl⟩)
  have built : node.Constructed :=
    .selection () ['k', 'H'] 1 poolBuilt rfl
  have noExplosion : ∀ sub ∈ node.subtrees, sub.isExplosion = false := by
    simp [node, base, subtrees, isExplosion]
  have oneSided : ∀ slot value inner, arithmetic slot .power value inner ∈ node.subtrees →
      Even value → ∀ low high, inner.reported .lowest = .ok low →
        inner.reported .highest = .ok high → low < 0 → 0 < high →
          value = 0 ∧ (Numeral.isWritable low = true ∨ Numeral.isWritable high = true) := by
    intro slot value inner mem _ low high _ reported _ above
    have same : inner = base := by
      simp [node, base, subtrees] at mem
      exact mem.2
    subst same
    have negative : base.reported .highest = .ok (-1) := by decide
    rw [negative] at reported
    cases reported
    contradiction
  -- The greater of the square and the die is kept, at either end.
  have report : ∀ (side : Extreme) (values : List Int) (bound : Int),
      [arithmetic () .power 2 base, die () (.sided 4)].all (isReported side) = true →
      [arithmetic () .power 2 base, die () (.sided 4)].map (extreme side) = values →
      Selection.keepHighest.select 1 values = [bound] → Numeral.isWritable bound = true →
        node.reported side = .ok bound := by
    intro side values bound reported same kept writable
    refine (reported_eq_ok built.checked side).mpr ⟨?_, ?_⟩
    · rw [isReported_selection, reported, same, kept]
      simpa using writable
    · rw [extreme_selection, same, kept]
      simp
  have least : node.reported .lowest = .ok 1 :=
    report .lowest [1, 1] 1 (by decide) (by decide) (by simp [Selection.select, List.mergeSort])
      (by decide)
  have greatest : node.reported .highest = .ok 9 :=
    report .highest [9, 4] 9 (by decide) (by decide) (by simp [Selection.select, List.mergeSort])
      (by decide)
  exact ⟨built, noExplosion, oneSided, least, greatest,
    exists_roll_eq_reported built noExplosion oneSided everySlot 0 least,
    exists_roll_eq_reported built noExplosion oneSided everySlot 0 greatest⟩

/-- The zeroth power of a number with 8001 digits, above or below zero, is reported to be at least
one.  But no roll comes to one, since a roll writes the number down. -/
theorem zeroth_power_never_rolls_minimum :
    let factor : Nat := 10 ^ 4000
    let product : Node Unit :=
      .arithmetic () .multiply factor (.arithmetic () .multiply factor (.die () (.custom [-1, 1])))
    let node : Node Unit := .arithmetic () .power 0 product
    node.Constructed ∧ (∀ sub ∈ node.subtrees, sub.isExplosion = false) ∧
      (∀ slot value inner, arithmetic slot .power value inner ∈ node.subtrees → 0 < value →
        Even value → ∀ low high, inner.reported .lowest = .ok low →
          inner.reported .highest = .ok high → ¬(low < 0 ∧ 0 < high)) ∧
      node.reported .lowest = .ok 1 ∧
      ∀ heard draws position, (node.reply heard draws .roll position).result ≠ .ok 1 := by
  intro factor product node
  -- What matters of the factor is its length.
  have length : ∃ exponent, factor = 10 ^ exponent ∧ exponent < Numeral.digitLimit ∧
      Numeral.digitLimit ≤ exponent + exponent := ⟨4000, rfl, by decide, by decide⟩
  clear_value factor
  obtain ⟨exponent, power, less, atLeast⟩ := length
  have short : Numeral.isWritable factor = true := by
    rw [Numeral.isWritable_iff, Int.natAbs_natCast, power]
    exact Nat.pow_lt_pow_right (by decide) less
  have tooLong : 10 ^ Numeral.digitLimit ≤ factor * factor := by
    rw [power, ← Nat.pow_add]
    exact Nat.pow_le_pow_right (by decide) atLeast
  have positive : 0 < factor := power ▸ Nat.pow_pos (by decide)
  have multiplied : ∀ inner : Node Unit, inner.Constructed →
      (arithmetic () .multiply factor inner).Constructed := fun inner built =>
    .arithmetic () ['*'] factor built (arithmetic?_eq_ok.mpr
      ⟨.multiply, rfl, Int.natCast_nonneg _, by simp, by rw [Int.toNat_natCast]⟩)
  have built : node.Constructed :=
    .arithmetic () ['^'] 0 (multiplied _ (multiplied _ (.custom () [-1, 1] rfl))) rfl
  have low : product.minimum = -(factor * factor : Nat) := by
    rw [← extreme_lowest, extreme_arithmetic, extreme_arithmetic, extreme_die]
    simp [Operation.isMonotone, Operation.apply, Die.extreme, Die.lowest]
  have high : product.maximum = (factor * factor : Nat) := by
    rw [← extreme_highest, extreme_arithmetic, extreme_arithmetic, extreme_die]
    simp [Operation.isMonotone, Operation.apply, Die.extreme, Die.highest]
  refine ⟨built, by simp [node, product, subtrees, isExplosion], ?_, ?_, ?_⟩
  · intro slot value inner mem above
    have zero : value = 0 := by
      simp [node, product, subtrees] at mem
      exact mem.1
    omega
  · have base : evenBase .lowest product.minimum product.maximum = 0 := by
      rw [low, high, evenBase, if_pos]
      simp only [Bool.and_eq_true, decide_eq_true_eq]
      omega
    have notMonotone : Operation.isMonotone .power 0 = false := rfl
    have reported : ∀ side, product.isReported side = true := by
      intro side
      have once : (arithmetic () .multiply factor (die () (.custom [-1, 1]))).extreme side
            = if side = .lowest then -(factor : Int) else factor := by
        rw [extreme_arithmetic, extreme_die]
        cases side <;>
          simp [Operation.isMonotone, Operation.apply, Die.extreme, Die.lowest, Die.highest]
      have written :
          Numeral.isWritable (if side = .lowest then -(factor : Int) else factor) = true :=
        Numeral.isWritable_of_natAbs_le short (by split <;> simp)
      have monotone : Operation.isMonotone .multiply factor = true := rfl
      have faces : Numeral.isWritable ((Die.custom [-1, 1]).extreme side) = true := by
        cases side <;> decide
      simp [product, isReported_arithmetic, isReported_die, monotone, once, written, short, faces]
    have zero : Numeral.isWritable 0 = true := by decide
    refine (reported_eq_ok built.checked .lowest).mpr ⟨?_, ?_⟩
    · simp [node, isReported_arithmetic, notMonotone, base, reported, zero]
    · simp [node, extreme_arithmetic, notMonotone, base, Operation.apply, Operation.raise]
  · intro heard draws position rolled
    have checked := built.checked
    rw [result_reply_eq heard draws checked] at rolled
    split at rolled
    · next written =>
        -- The last line holds the product, and that has too many digits.
        rw [reckon, roll_arithmetic, List.all_append, Bool.and_eq_true] at written
        have face := Die.face_mem (show (Die.custom [-1, 1]).Checked from Nat.le_refl 2)
          (draws position)
        simp [Entry.isWritten, Line.isWritable, product, roll_arithmetic, roll_die, Operation.apply,
          Numeral.isWritable_iff] at written face
        have one : ((Die.custom [-1, 1]).face (draws position)).natAbs = 1 := by
          rcases face with shown | shown <;> rw [shown] <;> rfl
        have product := written.2
        rw [Int.natAbs_mul, Int.natAbs_mul, one, Nat.one_mul, Int.natAbs_natCast] at product
        exact absurd product (Nat.not_lt.mpr tooLong)
    · cases rolled

end Node

end DicePool
