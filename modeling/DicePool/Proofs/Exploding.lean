/-
Module: DicePool.Proofs.Exploding
Purpose: What the checks of an explosion of dice say about every face of its dice.
Main exports: Die.faces, Die.mem_faces_iff, Die.Skips, Node.OfDice, Node.explosion?_eq_error,
  Node.OfDice.reply_of_reported, Node.dice_stop_and_explode_above_zero,
  Node.OfDice.exists_draws_explode, Node.OfDice.next_of_not_matching, Node.explodes_or_skips,
  Workshop.skipped_threshold_never_explodes
-/
import DicePool.Proofs.Collecting
import DicePool.Proofs.Drawing
import DicePool.Proofs.Spellings
import DicePool.Proofs.Stopping

/-!
An explosion of dice is accepted or refused by the lowest and the highest face of each die,
while what it does later depends on all faces.  Two of the checks lose nothing by that.  A die
can stop if and only if some face of it does not match (`Die.canStop_eq_false_iff`), and if the
lowest value that can explode is not below zero, no face that matches is.

The check that something can explode takes every value between the bounds for a face.  For the
orders it suffices to look at the bounds, and most dice show all values between them.  But a die
with faces of its own may skip values (`Die.Skips`), and then an explosion on a skipped value is
accepted although nothing can ever set it off: `Workshop.skipped_threshold_never_explodes`.

An explosion of dice that is accepted always comes to a value.  Its dice report their bounds, so
that these can be written, and then so can all faces: `Node.OfDice.reply_of_reported`.
-/

namespace DicePool

variable {α β : Type}

/-! ### Faces -/

namespace Die

/-- So many integers in a row. -/
def faceRow (first : Int) (count : Nat) : List Int :=
  (List.range count).map fun distance : Nat => first + distance

theorem getD_faceRow (first : Int) {count index : Nat} (inBounds : index < count) :
    (faceRow first count).getD index 0 = first + index := by
  have inRange : index < (List.range count).length := by rwa [List.length_range]
  rw [faceRow, List.getD_eq_getElem _ _ (by rwa [List.length_map]), List.getElem_map,
    List.getElem_range inRange]

theorem mem_faceRow {first x : Int} {count : Nat} :
    x ∈ faceRow first count ↔ first ≤ x ∧ x < first + count := by
  simp only [faceRow, List.mem_map, List.mem_range]
  constructor
  · rintro ⟨distance, inBounds, rfl⟩
    omega
  · rintro ⟨least, below⟩
    exact ⟨(x - first).toNat, by omega, by omega⟩

/-- The faces in order. -/
def faces : Die → List Int
  | sided sides => faceRow 1 sides
  | percentile => faceRow 1 100
  | fudge => faceRow (-1) 3
  | custom faces => faces

theorem length_faces (d : Die) : d.faces.length = d.size := by
  cases d <;> simp [faces, size, faceRow]

/-- A draw counts through the faces, over and over again. -/
theorem face_eq_getD {d : Die} (checked : d.Checked) (draw : Nat) :
    d.face draw = d.faces.getD (draw % d.size) 0 := by
  have inBounds : draw % d.size < d.size :=
    Nat.mod_lt draw (Nat.lt_of_lt_of_le Nat.two_pos checked)
  cases d with
  | custom faces => rfl
  | _ => exact (getD_faceRow _ inBounds).symm

/-- The faces are what the die can show. -/
theorem mem_faces_iff {d : Die} (checked : d.Checked) {x : Int} :
    x ∈ d.faces ↔ ∃ draw, d.face draw = x := by
  have positive : 0 < d.faces.length := by
    rw [length_faces]
    exact Nat.lt_of_lt_of_le Nat.two_pos checked
  constructor
  · intro mem
    obtain ⟨index, inBounds, rfl⟩ := List.getElem_of_mem mem
    refine ⟨index, ?_⟩
    rw [face_eq_getD checked, ← length_faces, Nat.mod_eq_of_lt inBounds,
      List.getD_eq_getElem _ _ inBounds]
  · rintro ⟨draw, rfl⟩
    have inBounds := Nat.mod_lt draw positive
    rw [face_eq_getD checked, ← length_faces, List.getD_eq_getElem _ _ inBounds]
    exact List.getElem_mem inBounds

theorem extreme_mem_faces {d : Die} (checked : d.Checked) (side : Extreme) :
    d.extreme side ∈ d.faces :=
  (mem_faces_iff checked).mpr (exists_face checked side)

theorem between_of_mem_faces {d : Die} (checked : d.Checked) {x : Int} (mem : x ∈ d.faces) :
    d.lowest ≤ x ∧ x ≤ d.highest := by
  obtain ⟨draw, rfl⟩ := (mem_faces_iff checked).mp mem
  exact face_between checked draw

/-- The die has faces of its own, and some lie below and some above the value, but none is it. -/
def Skips (d : Die) (x : Int) : Prop :=
  ∃ faces, d = custom faces ∧ x ∉ faces ∧ (∃ below ∈ faces, below < x) ∧ ∃ above ∈ faces, x < above

/-- Between its bounds a die shows every value that it does not skip. -/
theorem mem_faces_or_skips {d : Die} (checked : d.Checked) {x : Int} (low : d.lowest ≤ x)
    (high : x ≤ d.highest) : x ∈ d.faces ∨ d.Skips x := by
  cases d with
  | sided sides =>
      left
      simp only [lowest, highest] at low high
      exact mem_faceRow.mpr ⟨low, by omega⟩
  | percentile =>
      left
      simp only [lowest, highest] at low high
      exact mem_faceRow.mpr ⟨low, by omega⟩
  | fudge =>
      left
      simp only [lowest, highest] at low high
      exact mem_faceRow.mpr ⟨low, by omega⟩
  | custom faces =>
      by_cases mem : x ∈ faces
      · exact .inl mem
      right
      have least : (custom faces).lowest ∈ faces := extreme_mem_faces checked .lowest
      have greatest : (custom faces).highest ∈ faces := extreme_mem_faces checked .highest
      refine ⟨faces, rfl, mem, ⟨_, least, ?_⟩, ⟨_, greatest, ?_⟩⟩
      · exact lt_of_le_of_ne low fun same => mem (same ▸ least)
      · exact lt_of_le_of_ne high fun same => mem (same ▸ greatest)

/-! ### What the checks say about faces -/

variable {rule : Explosion} {d : Die}

theorem exists_face_not_matching (checked : d.Checked)
    (canStop : rule.canStop d.lowest d.highest = true) :
    ∃ face ∈ d.faces, rule.matches? face = false := by
  have canStopToo : rule.canStop (Node.die () d).minimum (Node.die () d).maximum = true := canStop
  obtain ⟨side, stops⟩ := Explosion.exists_extreme_not_matching canStopToo
  rw [Node.extreme_die] at stops
  exact ⟨d.extreme side, extreme_mem_faces checked side, stops⟩

/-- A die cannot stop exactly if it goes on with every face. -/
theorem canStop_eq_false_iff (checked : d.Checked) :
    rule.canStop d.lowest d.highest = false ↔ ∀ face ∈ d.faces, rule.matches? face = true := by
  constructor
  · intro endless face mem
    have between := between_of_mem_faces checked mem
    obtain ⟨comparison, threshold, limit⟩ := rule
    cases comparison <;>
      simp [Explosion.canStop, Explosion.matches?, Comparison.holds] at endless ⊢ <;> omega
  · intro endless
    rw [← Bool.not_eq_true]
    intro canStop
    obtain ⟨face, mem, stops⟩ := exists_face_not_matching checked canStop
    exact Bool.false_ne_true (stops.symm.trans (endless face mem))

theorem zero_le_of_matches (checked : d.Checked)
    (notBelowZero : 0 ≤ rule.lowestExplosion d.lowest d.highest) {face : Int}
    (mem : face ∈ d.faces) (explodes : rule.matches? face = true) : 0 ≤ face := by
  obtain ⟨low, high⟩ := between_of_mem_faces checked mem
  exact notBelowZero.trans (rule.lowestExplosion_le low high explodes)

/-- Where a value between the bounds explodes, a face does, unless the die skips it. -/
theorem exists_face_matching_or_skips (checked : d.Checked)
    (canExplode : rule.canExplode d.lowest d.highest = true) :
    (∃ face ∈ d.faces, rule.matches? face = true) ∨
      rule.comparison = .equal ∧ d.Skips rule.threshold := by
  obtain ⟨comparison, threshold, limit⟩ := rule
  cases comparison with
  | greater => exact .inl ⟨d.highest, extreme_mem_faces checked .highest, canExplode⟩
  | less => exact .inl ⟨d.lowest, extreme_mem_faces checked .lowest, canExplode⟩
  | equal =>
      simp only [Explosion.canExplode, Bool.and_eq_true, decide_eq_true_eq] at canExplode
      rcases mem_faces_or_skips checked canExplode.1 canExplode.2 with mem | skips
      · exact .inl ⟨threshold, mem, by simp [Explosion.matches?, Comparison.holds]⟩
      · exact .inr ⟨rfl, skips⟩

theorem not_matches_of_not_canExplode (checked : d.Checked)
    (dead : rule.canExplode d.lowest d.highest = false) {face : Int} (mem : face ∈ d.faces) :
    rule.matches? face = false := by
  have between := between_of_mem_faces checked mem
  obtain ⟨comparison, threshold, limit⟩ := rule
  cases comparison <;>
    simp [Explosion.canExplode, Explosion.matches?, Comparison.holds] at dead ⊢ <;> omega

theorem isWritable_of_mem_faces {d : Die} (checked : d.Checked)
    (reported : ∀ side, Numeral.isWritable (d.extreme side) = true) {x : Int} (mem : x ∈ d.faces) :
    Numeral.isWritable x = true := by
  obtain ⟨low, high⟩ := between_of_mem_faces checked mem
  exact Numeral.isWritable_of_between (reported .lowest) (reported .highest) low high

/-- A die that can be written has bounds that can be written. -/
theorem IsWritable.extreme {d : Die} (writable : d.IsWritable) (checked : d.Checked)
    (side : Extreme) : Numeral.isWritable (d.extreme side) = true := by
  have mem := extreme_mem_faces checked side
  cases d with
  | custom faces => exact writable _ mem
  | sided sides =>
      obtain ⟨low, high⟩ := between_of_mem_faces checked mem
      have one : Numeral.isWritable (sided sides).lowest = true :=
        (by decide : Numeral.isWritable 1 = true)
      exact Numeral.isWritable_of_between one (writable sides (by simp [numbers])) low high
  | percentile => cases side <;> decide
  | fudge => cases side <;> decide

end Die

/-! ### Pools of dice -/

namespace Node

/-- A die, or a pool of such nodes. Every die has at least two faces. -/
inductive OfDice : Node α → Prop where
  | die (slot : α) {d : Die} (checked : d.Checked) : OfDice (.die slot d)
  | pool (slot : α) {items : List (Node α)} (each : ∀ item ∈ items, OfDice item) :
      OfDice (.ofItems slot items)

namespace OfDice

variable {pool : Node α}

/-- Nothing in a pool of dice but its dice has anything to be checked, and they are. -/
theorem checked_subtrees (ofDice : pool.OfDice) : ∀ sub ∈ pool.subtrees, sub.Checked := by
  induction ofDice with
  | die slot checked => simpa [subtrees, Checked] using checked
  | @pool slot items _ ih =>
      intro sub mem
      rcases List.mem_cons.mp mem with rfl | inside
      · exact checked_ofItems slot items
      · rw [ofItems, inside_pool] at inside
        obtain ⟨item, itemMem, subMem⟩ := List.mem_flatMap.mp inside
        exact ih item (List.mem_filter.mp itemMem).1 sub subMem

theorem checked (ofDice : pool.OfDice) : ∀ d ∈ pool.dice, d.Checked := by
  induction ofDice with
  | die slot checked => simpa [dice] using checked
  | pool slot _ ih =>
      intro d mem
      rw [ofItems, dice_pool] at mem
      obtain ⟨item, itemMem, mem⟩ := List.mem_flatMap.mp mem
      exact ih item (List.mem_filter.mp itemMem).1 d mem

/-- When the pools are opened the dice are left. -/
theorem leaves_eq (ofDice : pool.OfDice) :
    pool.leaves = pool.dieNodes.map fun found => .die found.1 found.2 := by
  induction ofDice with
  | die slot _ => simp [leaves, dieNodes, subtrees, die?]
  | pool slot _ ih =>
      rw [ofItems, leaves_pool, dieNodes_pool, List.map_flatMap]
      exact List.flatMap_congr fun item mem => ih item (List.mem_filter.mp mem).1

theorem dice_eq (ofDice : pool.OfDice) : pool.dice = pool.dieNodes.map Prod.snd := by
  induction ofDice with
  | die slot _ => simp [dice, dieNodes, subtrees, die?]
  | pool slot _ ih =>
      rw [ofItems, dice_pool, dieNodes_pool, List.map_flatMap]
      exact List.flatMap_congr fun item mem => ih item (List.mem_filter.mp mem).1

/-- The leaves of a pool of dice are dice. -/
theorem exists_die (ofDice : pool.OfDice) {leaf : Node α} (mem : leaf ∈ pool.leaves) :
    ∃ slot d, leaf = .die slot d ∧ d ∈ pool.dice ∧ d.Checked := by
  rw [ofDice.leaves_eq] at mem
  obtain ⟨found, foundMem, rfl⟩ := List.mem_map.mp mem
  have dieMem : found.2 ∈ pool.dice := by
    rw [ofDice.dice_eq]
    exact List.mem_map_of_mem foundMem
  exact ⟨found.1, found.2, rfl, dieMem, ofDice.checked _ dieMem⟩

theorem map_range_leaves (ofDice : pool.OfDice) :
    pool.leaves.map range = pool.dice.map fun d => (d.lowest, d.highest) := by
  rw [ofDice.leaves_eq, ofDice.dice_eq, List.map_map, List.map_map]
  exact List.map_congr_left fun found _ => range_die found.1 found.2

theorem checked_leaves (ofDice : pool.OfDice) :
    ∀ leaf ∈ pool.leaves, ∀ sub ∈ leaf.subtrees, sub.Checked :=
  fun _ mem sub subMem =>
    ofDice.checked_subtrees sub (subtrees_subset (pool.leaves_subset mem) subMem)

/-- The dice of a pool that can be written report their bounds. -/
theorem isReported_of_isWritable (ofDice : pool.OfDice) (writable : pool.isWritable = true) :
    ∀ leaf ∈ pool.leaves, ∀ side, leaf.isReported side = true := by
  intro leaf mem side
  have written := isWritable_of_mem_subtrees writable leaf (pool.leaves_subset mem)
  obtain ⟨slot, d, rfl, -, checked⟩ := ofDice.exists_die mem
  rw [isReported_die]
  exact (isWritable_die.mp written).extreme checked side

end OfDice

/-! ### Why an explosion is refused -/

section

variable {rule : Explosion} {spelling quoted sign : Text} {bounds : List (Int × Int)} {bound : Int}

/-- An explosion is refused as endless if some item cannot stop. -/
theorem explosionFault?_eq_endless :
    explosionFault? rule spelling bounds = some (.endlessExplosion quoted sign bound) ↔
      (spelling = quoted ∧ [rule.comparison.sign] = sign ∧ rule.threshold = bound) ∧
        ∃ range ∈ bounds, rule.canStop range.1 range.2 = false := by
  unfold explosionFault?
  split
  · next endless => simpa using fun _ _ _ => endless
  · next stops =>
      have noEndless : ¬∃ range ∈ bounds, rule.canStop range.1 range.2 = false := by
        simpa using stops
      simp only [noEndless, and_false, iff_false]
      split
      · simp
      split <;> simp

/-- An explosion is refused as dead if all items can stop and none can explode. -/
theorem explosionFault?_eq_dead :
    explosionFault? rule spelling bounds = some (.deadExplosion quoted sign bound) ↔
      (spelling = quoted ∧ [rule.comparison.sign] = sign ∧ rule.threshold = bound) ∧
        (∀ range ∈ bounds, rule.canStop range.1 range.2 = true) ∧
        ∀ range ∈ bounds, rule.canExplode range.1 range.2 = false := by
  unfold explosionFault?
  split
  · next endless =>
      have noStop : ¬∀ range ∈ bounds, rule.canStop range.1 range.2 = true := by
        simpa using endless
      simp only [noStop, false_and, and_false, iff_false]
      simp
  split
  · next stops dead =>
      have allStop : ∀ range ∈ bounds, rule.canStop range.1 range.2 = true := by
        simpa using stops
      have noneExplodes : ∀ range ∈ bounds, rule.canExplode range.1 range.2 = false := by
        simpa using dead
      simp only [Option.some.injEq, Fault.deadExplosion.injEq]
      exact ⟨fun same => ⟨same, allStop, noneExplodes⟩, And.left⟩
  · next explodes =>
      have someExplodes : ¬∀ range ∈ bounds, rule.canExplode range.1 range.2 = false := by
        simpa using explodes
      simp only [someExplodes, and_false, iff_false]
      split <;> simp

end

/-- An explosion with a known comparison is refused for its limit, for an empty pool, because an
item reports no bound, or for the bounds of its items. -/
theorem explosion?_eq_error {heard : α → Bool} {slot : α} {sign : Comparison}
    {threshold limit : Int} {inner : Node α} {position : Nat} {fault : Fault}
    (checked : ∀ leaf ∈ inner.leaves, ∀ sub ∈ leaf.subtrees, sub.Checked) :
    ((explosion? (.memory heard) slot [sign.sign] threshold limit inner).remembered position).result
        = .error fault ↔
      limit < 0 ∧ fault = (Fault.negativeLimit limit).raised ∨
      0 ≤ limit ∧ inner.leaves = [] ∧ fault = .emptyPool ∨
      0 ≤ limit ∧ inner.leaves ≠ [] ∧
        ((∃ leaf ∈ inner.leaves, ∃ side, leaf.isReported side = false) ∧ fault = .numberTooLong ∨
          (∀ leaf ∈ inner.leaves, ∀ side, leaf.isReported side = true) ∧
            ∃ found, explosionFault? ⟨sign, threshold, limit.toNat⟩ inner.spelling
              (inner.leaves.map range) = some found ∧ fault = inner.raise found) := by
  have known : Comparison.ofText? [sign.sign] = some sign := by cases sign <;> rfl
  rw [result_explosion? heard slot known]
  split
  · next negative =>
      have noNatural : ¬0 ≤ limit := Int.not_le.mpr negative
      simp only [negative, noNatural, true_and, false_and, or_false, Except.error.injEq]
      exact eq_comm
  next natural =>
  split
  · next empty =>
      have noLeaves : inner.leaves = [] := List.isEmpty_iff.mp empty
      simp only [natural, Int.not_lt.mp natural, noLeaves, true_and, false_and, false_or, ne_eq,
        not_true_eq_false, or_false, Except.error.injEq]
      exact eq_comm
  next nonempty =>
  have leaves : inner.leaves ≠ [] := fun noLeaves => nonempty (List.isEmpty_iff.mpr noLeaves)
  simp only [natural, Int.not_lt.mp natural, leaves, true_and, false_and, false_or, ne_eq,
    not_false_eq_true]
  cases bounds : inner.leaves.mapM reportedRange with
  | error tooLong =>
      obtain rfl := mapM_reportedRange_eq_error checked bounds
      have unreported : ¬∀ leaf ∈ inner.leaves, ∀ side, leaf.isReported side = true := by
        intro reported
        rw [(mapM_reportedRange checked).mpr ⟨reported, rfl⟩] at bounds
        cases bounds
      simp only [unreported, false_and, or_false]
      have found : ∃ leaf ∈ inner.leaves, ∃ side, leaf.isReported side = false := by
        simpa using unreported
      simp only [found, true_and]
      exact ⟨fun same => (Except.error.inj same).symm, fun same => same ▸ rfl⟩
  | ok ranges =>
      obtain ⟨reported, rfl⟩ := (mapM_reportedRange checked).mp bounds
      have allReported : ¬∃ leaf ∈ inner.leaves, ∃ side, leaf.isReported side = false := by
        simpa using reported
      simp only [allReported, false_and, false_or, except_ok_bind]
      cases explosionFault? ⟨sign, threshold, limit.toNat⟩ inner.spelling
          (inner.leaves.map range) with
      | none => simp
      | some found =>
          simp only [Except.error.injEq, Option.some.injEq, exists_eq_left']
          exact ⟨fun same => ⟨reported, same.symm⟩, fun same => same.2.symm⟩

/-- What is quoted in words is the fault itself, or a number is too long. -/
theorem eq_of_raise_eq {node : Node α} {fault other : Fault} (raised : other = node.raise fault)
    (short : other ≠ .numberTooLong) : other = fault := by
  subst raised
  unfold raise Fault.raised at short ⊢
  split at short
  · split at short
    · next writable quoted => rw [if_pos writable, if_pos quoted]
    · exact absurd rfl short
  · exact absurd rfl short

/-! ### Explosions of dice -/

/-- An explosion of dice that is refused for its dice has the fault that their bounds have. -/
theorem OfDice.fault_of_refused {heard : α → Bool} {slot : α} {pool : Node α} {sign : Comparison}
    {threshold limit : Int} {position : Nat} {fault : Fault} (ofDice : pool.OfDice)
    (refused : ((explosion? (.memory heard) slot [sign.sign] threshold limit pool).remembered
      position).result = .error fault)
    (short : fault ≠ .numberTooLong) (natural : fault ≠ .negativeLimit limit)
    (nonempty : fault ≠ .emptyPool) :
    explosionFault? ⟨sign, threshold, limit.toNat⟩ pool.spelling (pool.leaves.map range)
      = some fault := by
  rcases (explosion?_eq_error ofDice.checked_leaves).mp refused with
    ⟨-, raised⟩ | ⟨-, -, empty⟩ | ⟨-, -, ⟨-, tooLong⟩ | ⟨-, found, quoted, raised⟩⟩
  · unfold Fault.raised at raised
    split at raised
    · exact absurd raised natural
    · exact absurd raised short
  · exact absurd empty nonempty
  · exact absurd tooLong short
  · rwa [eq_of_raise_eq raised short]

/-- An explosion of dice that is accepted suits the bounds of its dice, and these are reported. -/
theorem OfDice.explodes_of_accepted {heard : α → Bool} {slot : α} {pool node : Node α}
    {sign : Comparison} {threshold limit : Int} {position : Nat} (ofDice : pool.OfDice)
    (accepted : ((explosion? (.memory heard) slot [sign.sign] threshold limit pool).remembered
      position).result = .ok node) :
    node = .explosion slot ⟨sign, threshold, limit.toNat⟩ pool ∧
      pool.Explodes ⟨sign, threshold, limit.toNat⟩ := by
  obtain ⟨found, known, -, explodes, rfl⟩ :=
    (explosion?_eq_ok_iff_explodes ofDice.checked_subtrees).mp accepted
  obtain rfl : found = sign := by
    cases sign <;> exact (Option.some.inj known).symm
  exact ⟨rfl, explodes⟩

/-- Every die of an explosion that is accepted has a face that ends it, and no face below zero
that makes it go on.  An explosion is refused as endless only if some die makes it go on with
every face; and then it is refused so, if the words for that can be written. -/
theorem dice_stop_and_explode_above_zero (heard : α → Bool) (slot : α) {pool : Node α}
    (ofDice : pool.OfDice) (sign : Comparison) (threshold limit : Int) (position : Nat) :
    let made := ((explosion? (.memory heard) slot [sign.sign] threshold limit pool).remembered
      position).result
    (∀ node, made = .ok node → ∀ d ∈ pool.dice,
      (∃ face ∈ d.faces, sign.holds face threshold = false) ∧
        ∀ face ∈ d.faces, sign.holds face threshold = true → 0 ≤ face) ∧
    (∀ quoted comparison bound, made = .error (.endlessExplosion quoted comparison bound) →
      ∃ d ∈ pool.dice, ∀ face ∈ d.faces, sign.holds face threshold = true) ∧
    (0 ≤ limit → (∃ d ∈ pool.dice, ∀ face ∈ d.faces, sign.holds face threshold = true) →
      pool.isWritable = true → Numeral.isWritable threshold = true →
        made = .error (.endlessExplosion pool.spelling [sign.sign] threshold)) := by
  intro made
  refine ⟨fun node accepted d mem => ?_, fun quoted comparison bound refused => ?_,
    fun natural endless writable quotable => ?_⟩
  · have checked := ofDice.checked d mem
    have suits := (ofDice.explodes_of_accepted accepted).2.suits
    rw [ofDice.map_range_leaves] at suits
    have range := List.mem_map_of_mem (f := fun d : Die => (d.lowest, d.highest)) mem
    refine ⟨Die.exists_face_not_matching checked (suits.canStop _ range), fun face faceMem => ?_⟩
    exact Die.zero_le_of_matches checked (suits.notBelowZero _ range) faceMem
  · have endless := ofDice.fault_of_refused refused (by simp) (by simp) (by simp)
    simp only [explosionFault?_eq_endless, ofDice.map_range_leaves, List.mem_map] at endless
    obtain ⟨-, _, ⟨d, mem, rfl⟩, endless⟩ := endless
    exact ⟨d, mem, (Die.canStop_eq_false_iff (ofDice.checked d mem)).mp endless⟩
  · obtain ⟨d, mem, endless⟩ := endless
    have range : (d.lowest, d.highest) ∈ pool.leaves.map range := by
      rw [ofDice.map_range_leaves]
      exact List.mem_map_of_mem mem
    have nonempty : pool.leaves ≠ [] := by
      intro noLeaves
      simp [noLeaves] at range
    have fault : explosionFault? ⟨sign, threshold, limit.toNat⟩ pool.spelling
        (pool.leaves.map Node.range)
          = some (.endlessExplosion pool.spelling [sign.sign] threshold) :=
      explosionFault?_eq_endless.mpr ⟨⟨rfl, rfl, rfl⟩, _, range,
        (Die.canStop_eq_false_iff (ofDice.checked d mem)).mpr endless⟩
    refine (explosion?_eq_error ofDice.checked_leaves).mpr (.inr (.inr ⟨natural, nonempty, .inr
      ⟨ofDice.isReported_of_isWritable writable, _, fault, ?_⟩⟩))
    simp [raise, Fault.raised, Fault.numbers, writable, quotable]

/-- Dice in pools of several depths, one with a negative and a repeated face.  Above one the
fudge die never goes on, and below two it always does. -/
theorem nested_dice_stop_and_explode_above_zero :
    let own : Die := .custom [-1, 7, 7]
    let pool : Node Unit :=
      .pool () [.die () (.sided 6), .pool () [.die () .fudge, .pool () [.die () own]]]
    let node : Node Unit := .explosion () ⟨.greater, 1, 100⟩ pool
    pool.OfDice ∧ own ∈ pool.dice ∧
      ((explosion? (.memory everySlot) () ['>'] 1 100 pool).remembered 0).result = .ok node ∧
      (∃ face ∈ own.faces, Comparison.greater.holds face 1 = false) ∧
      (∀ face ∈ own.faces, Comparison.greater.holds face 1 = true → 0 ≤ face) ∧
      ((explosion? (.memory everySlot) () ['<'] 2 100 pool).remembered 0).result
        = .error (.endlessExplosion pool.spelling ['<'] 2) := by
  intro own pool node
  have ofDice : pool.OfDice := by
    have sixSided : OfDice (.die () (.sided 6)) := .die () (by decide : 2 ≤ 6)
    have fudge : OfDice (.die () .fudge) := .die () (by decide : 2 ≤ 3)
    have ownDie : OfDice (.die () own) := .die () (by decide : 2 ≤ 3)
    have inner : OfDice (.ofItems () [.die () own]) := .pool () (by simpa using ownDie)
    have middle : OfDice (.ofItems () [.die () .fudge, .ofItems () [.die () own]]) :=
      .pool () (by simpa using ⟨fudge, inner⟩)
    have outer : OfDice (.ofItems () [.die () (.sided 6),
        .ofItems () [.die () .fudge, .ofItems () [.die () own]]]) :=
      .pool () (by simpa using ⟨sixSided, middle⟩)
    exact outer
  have ownMem : own ∈ pool.dice := by decide
  have accepted : ((explosion? (.memory everySlot) () ['>'] 1 100 pool).remembered 0).result
      = .ok node := rfl
  obtain ⟨stops, aboveZero⟩ :=
    (dice_stop_and_explode_above_zero everySlot () ofDice .greater 1 100 0).1 node accepted own
      ownMem
  have endless := (dice_stop_and_explode_above_zero everySlot () ofDice .less 2 100 0).2.2
    (by decide) ⟨.fudge, by decide, by decide⟩ (by decide) (by decide)
  exact ⟨ofDice, ownMem, accepted, stops, aboveZero, endless⟩

/-! ### Explosions that are set off -/

end Node

section

variable {items : List β} {rollers : β → Roller α}

/-- Every item takes at least one draw. -/
theorem length_le_explodeAll_next (rule : Explosion)
    (each : ∀ item ∈ items, TakesBetween 1 1 (rollers item)) (position : Nat) :
    position + items.length ≤ (explodeAll rule (items.map rollers) position).next := by
  have between : position + (items.map fun _ => 1).sum
      ≤ (explodeAll rule (items.map rollers) position).next :=
    (explodeAll_next_between each position).1
  simpa using between

/-- An item that is sure to explode takes one draw more. -/
theorem length_lt_explodeAll_next {rule : Explosion} (again : 1 ≤ rule.limit)
    (each : ∀ item ∈ items, TakesBetween 1 1 (rollers item)) {item : β} (mem : item ∈ items)
    (explodes : ∀ position, rule.matches? (rollers item position).value = true) (position : Nat) :
    position + items.length < (explodeAll rule (items.map rollers) position).next := by
  induction items generalizing position with
  | nil => simp at mem
  | cons first rest ih =>
      have eachRest : ∀ item ∈ rest, TakesBetween 1 1 (rollers item) :=
        fun item mem => each item (List.mem_cons_of_mem _ mem)
      have once := each first List.mem_cons_self
      simp only [List.map_cons, explodeAll, List.length_cons]
      rcases List.mem_cons.mp mem with rfl | mem
      · obtain ⟨limit, more⟩ := Nat.exists_eq_add_of_le' again
        have twice : position + 2
            ≤ (rerolls rule.matches? (rollers item) rule.limit position).next := by
          have taken := (once position).1
          have further := (rerolls_next_between rule.matches? once limit
            (rollers item position).next).1
          rw [more, rerolls, if_pos (explodes position)]
          dsimp only
          omega
        have others := length_le_explodeAll_next rule eachRest
          (rerolls rule.matches? (rollers item) rule.limit position).next
        omega
      · have taken := (rerolls_next_between rule.matches? once rule.limit position).1
        have others := ih eachRest mem
          (rerolls rule.matches? (rollers first) rule.limit position).next
        omega

/-- If no item ever explodes, each takes the one draw. -/
theorem explodeAll_next_of_not_matching {rule : Explosion}
    (each : ∀ item ∈ items, TakesBetween 1 1 (rollers item))
    (stops : ∀ item ∈ items, ∀ position, rule.matches? (rollers item position).value = false)
    (position : Nat) :
    (explodeAll rule (items.map rollers) position).next = position + items.length := by
  have noneGoesOn : ∀ value ∈ (rollAll (items.map rollers) position).values,
      rule.matches? value = false := by
    clear each
    induction items generalizing position with
    | nil => simp [rollAll]
    | cons first rest ih =>
        have stopsRest := (List.forall_mem_cons.mp stops).2
        rw [List.map_cons, rollAll, List.forall_mem_cons]
        exact ⟨stops first List.mem_cons_self position, ih stopsRest (rollers first position).next⟩
  have least : position + (items.map fun _ => 1).sum
      ≤ (rollAll (items.map rollers) position).next := (rollAll_next_between each position).1
  have greatest : (rollAll (items.map rollers) position).next
      ≤ position + (items.map fun _ => 1).sum := (rollAll_next_between each position).2
  rw [explodeAll_eq_rollAll noneGoesOn]
  simpa using Nat.le_antisymm greatest least

end

namespace Node

/-- An explosion of dice that report their bounds comes to a value with every roll. -/
theorem OfDice.reply_of_reported {pool : Node α} (ofDice : pool.OfDice) {rule : Explosion}
    (explodes : pool.Explodes rule) (heard : α → Bool) (slot : α) (draws : Draws)
    (position : Nat) :
    let rolled := (explosion slot rule pool).roll draws position
    (explosion slot rule pool).reply heard draws .roll position
      = ⟨.ok rolled.value, rolled.next, heardOf heard rolled.entries⟩ := by
  have legible : ∀ leaf ∈ pool.leaves, ∀ position,
      (∀ entry ∈ (leaf.roll draws position).entries, entry.isWritten = true) ∧
        Numeral.isWritable (leaf.roll draws position).value = true := by
    intro leaf mem position
    have reported := explodes.reports leaf mem
    obtain ⟨slot, d, rfl, -, checked⟩ := ofDice.exists_die mem
    simp only [isReported_die] at reported
    have shown : d.face (draws position) ∈ d.faces := (Die.mem_faces_iff checked).mpr ⟨_, rfl⟩
    simp [roll_die, Entry.isWritten, Line.isWritable,
      Die.isWritable_of_mem_faces checked reported shown]
  have checked : ∀ sub ∈ (explosion slot rule pool).subtrees, sub.Checked := by
    intro sub mem
    rcases List.mem_cons.mp mem with rfl | inside
    · exact explodes
    · exact ofDice.checked_subtrees sub (by simpa using inside)
  refine reply_of_written heard draws checked .roll position ?_
  obtain ⟨entries, values⟩ := mem_explodeAll
  rw [reckon, roll_explosion]
  refine all_isWritten_append_step (List.all_eq_true.mpr fun entry mem => ?_)
    (List.all_eq_true.mpr fun value mem => ?_)
  · obtain ⟨leaf, leafMem, position, found⟩ := entries entry mem
    exact (legible leaf leafMem position).1 entry found
  · obtain ⟨leaf, leafMem, position, rfl⟩ := values value mem
    exact (legible leaf leafMem position).2

/-- A pool of dice of which one has a face that explodes: if that face is drawn all the time, the
roll takes more draws than there are dice. -/
theorem OfDice.exists_draws_explode {pool : Node α} (ofDice : pool.OfDice) {rule : Explosion}
    (explodes : pool.Explodes rule) (heard : α → Bool) (slot : α) (again : 1 ≤ rule.limit) {d : Die}
    (mem : d ∈ pool.dice) {face : Int} (faceMem : face ∈ d.faces)
    (goesOn : rule.matches? face = true) (position : Nat) :
    ∃ draws, position + pool.dice.length
      < ((explosion slot rule pool).reply heard draws .roll position).next := by
  obtain ⟨draw, shown⟩ := (Die.mem_faces_iff (ofDice.checked d mem)).mp faceMem
  refine ⟨fun _ => draw, ?_⟩
  rw [ofDice.reply_of_reported explodes]
  rw [ofDice.dice_eq] at mem
  obtain ⟨found, foundMem, rfl⟩ := List.mem_map.mp mem
  rw [roll_explosion, ofDice.leaves_eq, ofDice.dice_eq, List.map_map, List.length_map]
  refine length_lt_explodeAll_next again (fun found _ position => ?_) foundMem (fun position => ?_)
    position
  · simp [roll_die]
  · simpa [roll_die, shown] using goesOn

/-- A pool of dice of which none has a face that explodes: whatever is drawn, the roll takes one
draw for each. -/
theorem OfDice.next_of_not_matching {pool : Node α} (ofDice : pool.OfDice) {rule : Explosion}
    (explodes : pool.Explodes rule)
    (stops : ∀ d ∈ pool.dice, ∀ face ∈ d.faces, rule.matches? face = false) (heard : α → Bool)
    (slot : α) (draws : Draws) (position : Nat) :
    ((explosion slot rule pool).reply heard draws .roll position).next
      = position + pool.dice.length := by
  have checked := ofDice.checked
  rw [ofDice.reply_of_reported explodes]
  rw [ofDice.dice_eq] at stops checked ⊢
  rw [roll_explosion, ofDice.leaves_eq, List.map_map, List.length_map]
  refine explodeAll_next_of_not_matching (fun found _ position => ?_) (fun found mem position => ?_)
    position
  · simp [roll_die]
  · have dieMem := List.mem_map_of_mem (f := Prod.snd) mem
    have shown : found.2.face (draws position) ∈ found.2.faces :=
      (Die.mem_faces_iff (checked _ dieMem)).mpr ⟨_, rfl⟩
    simpa [roll_die] using stops _ dieMem _ shown

/-- Some die of an explosion that is accepted has a face that makes it go on, unless the
explosion waits for a value that a die with faces of its own skips.  Exactly if there is such a
face, some roll takes more draws than there are dice.  An explosion is refused as dead only if no
die has such a face. -/
theorem explodes_or_skips (heard : α → Bool) (slot : α) {pool : Node α}
    (ofDice : pool.OfDice) (sign : Comparison) (threshold limit : Int) (position : Nat) :
    let made := ((explosion? (.memory heard) slot [sign.sign] threshold limit pool).remembered
      position).result
    (∀ node, made = .ok node →
      ((∃ d ∈ pool.dice, ∃ face ∈ d.faces, sign.holds face threshold = true) ∨
        sign = .equal ∧ ∃ d ∈ pool.dice, d.Skips threshold) ∧
      (1 ≤ limit → ∀ position,
        (∃ draws, position + pool.dice.length < (node.reply heard draws .roll position).next) ↔
          ∃ d ∈ pool.dice, ∃ face ∈ d.faces, sign.holds face threshold = true)) ∧
    (∀ quoted comparison bound, made = .error (.deadExplosion quoted comparison bound) →
      ∀ d ∈ pool.dice, ∀ face ∈ d.faces, sign.holds face threshold = false) := by
  intro made
  refine ⟨fun node accepted => ?_, fun quoted comparison bound refused d mem face faceMem => ?_⟩
  · obtain ⟨rfl, explodes⟩ := ofDice.explodes_of_accepted accepted
    have suits := explodes.suits
    rw [ofDice.map_range_leaves] at suits
    refine ⟨?_, fun again position => ⟨?_, ?_⟩⟩
    · obtain ⟨_, range, canExplode⟩ := suits.canExplode
      obtain ⟨d, mem, rfl⟩ := List.mem_map.mp range
      rcases Die.exists_face_matching_or_skips (ofDice.checked d mem) canExplode with
        ⟨face, faceMem, goesOn⟩ | ⟨equal, skips⟩
      · exact .inl ⟨d, mem, face, faceMem, goesOn⟩
      · exact .inr ⟨equal, d, mem, skips⟩
    · rintro ⟨draws, more⟩
      by_contra noFace
      have stops : ∀ d ∈ pool.dice, ∀ face ∈ d.faces, sign.holds face threshold = false := by
        simpa using noFace
      rw [ofDice.next_of_not_matching explodes stops] at more
      exact Nat.lt_irrefl _ more
    · rintro ⟨d, mem, face, faceMem, goesOn⟩
      have natural : 1 ≤ limit.toNat := Int.toNat_le_toNat again
      exact ofDice.exists_draws_explode explodes heard slot natural mem faceMem goesOn position
  · have dead := ofDice.fault_of_refused refused (by simp) (by simp) (by simp)
    simp only [explosionFault?_eq_dead, ofDice.map_range_leaves, List.forall_mem_map] at dead
    exact Die.not_matches_of_not_canExplode (ofDice.checked d mem) (dead.2.2 d mem) faceMem

/-- Above four the die with faces of its own can go on and no other one, and above eight none
can. -/
theorem nested_die_explodes :
    let own : Die := .custom [-1, 7, 7]
    let pool : Node Unit := .pool () [.die () .fudge, .pool () [.die () own]]
    let node : Node Unit := .explosion () ⟨.greater, 4, 1⟩ pool
    pool.OfDice ∧
      ((explosion? (.memory everySlot) () ['>'] 4 1 pool).remembered 0).result = .ok node ∧
      (∀ position, ∃ draws, position + 2 < (node.reply everySlot draws .roll position).next) ∧
      ((explosion? (.memory everySlot) () ['>'] 8 1 pool).remembered 0).result
        = .error (.deadExplosion pool.spelling ['>'] 8) ∧
      ∀ face ∈ own.faces, Comparison.greater.holds face 8 = false := by
  intro own pool node
  have ofDice : pool.OfDice := by
    have fudge : OfDice (.die () .fudge) := .die () (by decide : 2 ≤ 3)
    have ownDie : OfDice (.die () own) := .die () (by decide : 2 ≤ 3)
    have inner : OfDice (.ofItems () [.die () own]) := .pool () (by simpa using ownDie)
    have outer : OfDice (.ofItems () [.die () .fudge, .ofItems () [.die () own]]) :=
      .pool () (by simpa using ⟨fudge, inner⟩)
    exact outer
  have accepted : ((explosion? (.memory everySlot) () ['>'] 4 1 pool).remembered 0).result
      = .ok node := rfl
  have refused : ((explosion? (.memory everySlot) () ['>'] 8 1 pool).remembered 0).result
      = .error (.deadExplosion pool.spelling ['>'] 8) := by
    have fault : explosionFault? ⟨.greater, 8, 1⟩ pool.spelling (pool.leaves.map range)
        = some (.deadExplosion pool.spelling ['>'] 8) := rfl
    have reported := ofDice.isReported_of_isWritable (by decide)
    have raised : Fault.deadExplosion pool.spelling ['>'] 8
        = pool.raise (.deadExplosion pool.spelling ['>'] 8) := by
      simp only [raise, Fault.raised]
      rw [if_pos (by decide), if_pos (by decide)]
    change ((explosion? (.memory everySlot) () [Comparison.greater.sign] 8 1 pool).remembered
      0).result = _
    refine (explosion?_eq_error ofDice.checked_leaves).mpr (.inr (.inr ?_))
    exact ⟨by decide, by decide, .inr ⟨reported, _, fault, raised⟩⟩
  have dead := (explodes_or_skips everySlot () ofDice .greater 8 1 0).2 _ _ _ refused own
    (by decide)
  have setOff := ((explodes_or_skips everySlot () ofDice .greater 4 1 0).1 node accepted).2
  refine ⟨ofDice, accepted, fun position => ?_, refused, dead⟩
  exact (setOff (by decide) position).mpr ⟨own, by decide, 7, by decide⟩

end Node

namespace Workshop

open Node

/-- A die with the faces `1` and `5` never shows a three, which lies between its bounds.  So
`d[1,5]!=3` is built, and whatever is drawn, the die is drawn once only. -/
theorem skipped_threshold_never_explodes :
    let shop : Workshop := ⟨some ['6'], 100, false⟩
    let s := ['d', '[', '1', ',', '5', ']', '!', '=', '3']
    let die : Die := .custom [1, 5]
    let pool : Node Unit := .pool () [.die () die]
    let node : Node Unit := .explosion () ⟨.equal, 3, 100⟩ pool
    (shop.build s).result = .ok node ∧ pool.OfDice ∧ die.Skips 3 ∧
      (∀ d ∈ pool.dice, ∀ face ∈ d.faces, Comparison.equal.holds face 3 = false) ∧
      ∀ heard draws position, (node.reply heard draws .roll position).next = position + 1 := by
  intro shop s die pool node
  have built : (shop.build s).result = .ok node := shop.build_eq_ok.mpr ⟨_, rfl, rfl, by decide⟩
  have checked : die.Checked := Nat.le_refl 2
  have ofDice : pool.OfDice := by
    have outer : OfDice (.ofItems () [.die () die]) :=
      .pool () (by simpa using OfDice.die () checked)
    exact outer
  have skips : die.Skips 3 := ⟨[1, 5], rfl, by decide, ⟨1, by decide⟩, ⟨5, by decide⟩⟩
  have stops : ∀ d ∈ pool.dice, ∀ face ∈ d.faces, Comparison.equal.holds face 3 = false := by
    decide
  have explodes : pool.Explodes ⟨.equal, 3, 100⟩ :=
    shop.checked_of_build built node (self_mem_subtrees node)
  exact ⟨built, ofDice, skips, stops, fun heard draws position =>
    ofDice.next_of_not_matching explodes stops heard () draws position⟩

end Workshop

end DicePool
