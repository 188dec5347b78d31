/-
Module: DicePool.Proofs.Constructing
Purpose: What is known of every node that could be put together.
Main exports: Node.reportedRange, Node.result_explosion?, Node.explosion?_eq_ok,
  Node.explosion?_eq_ok_iff_explodes, Node.Constructed, Node.Constructed.checked
-/
import DicePool.Proofs.Completing

/-!
`Node.Constructed` says that a node was put together, step by step, each time with the checks of
its sort.  Every node of the tree of a constructed node is checked: `Node.Constructed.checked`.

For an explosion the check needs the bounds that the leaves report (`Node.explosion?_eq_ok`), and
these are the bounds that are reckoned with: `Node.explosion?_eq_ok_iff_explodes`.
-/

namespace DicePool.Node

variable {α : Type}

/-! ### The check of an explosion -/

/-- Both bounds that the node reports. -/
def reportedRange (node : Node α) : Except Fault (Int × Int) := do
  let low ← node.reported .lowest
  let high ← node.reported .highest
  return (low, high)

theorem run_askBounds (heard : α → Bool) (leaf : Node α) (standing : Standing (Array (Entry α))) :
    ∃ last, (leaf.askBounds (.memory heard)).run standing
      = (leaf.reportedRange, ⟨standing.position, last⟩) := by
  obtain ⟨known, ranLow⟩ := run_askBound heard leaf .lowest standing
  unfold askBounds reportedRange
  cases low : leaf.reported .lowest with
  | error fault => exact ⟨known, Evaluation.run_bind_of_error (ranLow.trans (by rw [low]))⟩
  | ok least =>
      rw [low] at ranLow
      obtain ⟨known', ranHigh⟩ := run_askBound heard leaf .highest ⟨standing.position, known⟩
      rw [Evaluation.run_bind_of_ok ranLow]
      cases high : leaf.reported .highest with
      | error fault => exact ⟨known', Evaluation.run_bind_of_error (ranHigh.trans (by rw [high]))⟩
      | ok greatest =>
          rw [high] at ranHigh
          exact ⟨known', Evaluation.run_bind_of_ok ranHigh⟩

theorem run_each_askBounds (heard : α → Bool) (leaves : List (Node α))
    (standing : Standing (Array (Entry α))) :
    ∃ last, (Evaluation.each (leaves.map (askBounds (.memory heard)))).run standing
      = (leaves.mapM reportedRange, ⟨standing.position, last⟩) := by
  induction leaves generalizing standing with
  | nil => exact ⟨standing.known, rfl⟩
  | cons leaf rest ih =>
      obtain ⟨known, ran⟩ := run_askBounds heard leaf standing
      rw [List.map_cons, Evaluation.each, List.mapM_cons]
      cases first : leaf.reportedRange with
      | error fault => exact ⟨known, Evaluation.run_bind_of_error (ran.trans (by rw [first]))⟩
      | ok range =>
          rw [first] at ran
          obtain ⟨known', ran'⟩ := ih ⟨standing.position, known⟩
          rw [Evaluation.run_bind_of_ok ran]
          cases others : rest.mapM reportedRange with
          | error fault =>
              exact ⟨known', Evaluation.run_bind_of_error (ran'.trans (by rw [others]))⟩
          | ok ranges =>
              rw [others] at ran'
              exact ⟨known', Evaluation.run_bind_of_ok ran'⟩

/-- What becomes of an explosion with a known comparison. -/
theorem result_explosion? (heard : α → Bool) (slot : α) {comparison : Text} {sign : Comparison}
    (known : Comparison.ofText? comparison = some sign) (threshold limit : Int) (inner : Node α)
    (position : Nat) :
    ((explosion? (.memory heard) slot comparison threshold limit inner).remembered position).result
      = if limit < 0 then .error (Fault.negativeLimit limit).raised
        else if inner.leaves.isEmpty then .error .emptyPool
        else inner.leaves.mapM reportedRange >>= fun bounds =>
          match explosionFault? ⟨sign, threshold, limit.toNat⟩ inner.spelling bounds with
          | some fault => .error (inner.raise fault)
          | none => .ok (explosion slot ⟨sign, threshold, limit.toNat⟩ inner) := by
  simp only [explosion?, known]
  split
  · rfl
  split
  · rfl
  obtain ⟨known, ran⟩ := run_each_askBounds heard inner.leaves ⟨position, #[]⟩
  unfold Evaluation.remembered
  cases reported : inner.leaves.mapM reportedRange with
  | error fault =>
      rw [reported] at ran
      rw [Evaluation.run_bind_of_error ran]
      rfl
  | ok bounds =>
      rw [reported] at ran
      rw [Evaluation.run_bind_of_ok ran]
      simp only [bind, Except.bind]
      cases explosionFault? ⟨sign, threshold, limit.toNat⟩ inner.spelling bounds <;> rfl

/-- An explosion is made if its leaves report bounds that suit it. -/
theorem explosion?_eq_ok {heard : α → Bool} {slot : α} {comparison : Text}
    {threshold limit : Int} {inner node : Node α} {position : Nat} :
    ((explosion? (.memory heard) slot comparison threshold limit inner).remembered position).result
        = .ok node ↔
      ∃ sign, Comparison.ofText? comparison = some sign ∧ 0 ≤ limit ∧
        (∃ bounds, inner.leaves.mapM reportedRange = .ok bounds ∧
          (⟨sign, threshold, limit.toNat⟩ : Explosion).Suits bounds) ∧
        node = explosion slot ⟨sign, threshold, limit.toNat⟩ inner := by
  cases known : Comparison.ofText? comparison with
  | none => simp [explosion?, known, Evaluation.remembered, Evaluation.answer]
  | some sign =>
      simp only [Option.some.injEq, exists_eq_left']
      rw [result_explosion? heard slot known]
      by_cases negative : limit < 0
      · simp [negative]
      by_cases empty : inner.leaves.isEmpty = true
      · simp only [negative, empty, if_true, if_false]
        simp only [List.isEmpty_iff.mp empty]
        constructor
        · intro made
          cases made
        · rintro ⟨-, ⟨bounds, reported, suits⟩, -⟩
          obtain rfl : [] = bounds := Except.ok.inj reported
          obtain ⟨range, mem, -⟩ := suits.canExplode
          cases mem
      have possible : 0 ≤ limit := Int.not_lt.mp negative
      rw [if_neg negative, if_neg empty, except_bind_eq_ok]
      constructor
      · rintro ⟨bounds, reported, made⟩
        split at made
        · cases made
        · next noFault =>
            cases made
            exact ⟨possible, ⟨bounds, reported, explosionFault?_eq_none.mp noFault⟩, rfl⟩
      · rintro ⟨-, ⟨bounds, reported, suits⟩, rfl⟩
        refine ⟨bounds, reported, ?_⟩
        rw [explosionFault?_eq_none.mpr suits]

/-- A checked leaf reports the bounds that are reckoned with, if it reports both. -/
theorem reportedRange_eq_ok {leaf : Node α} (checked : ∀ sub ∈ leaf.subtrees, sub.Checked)
    {bounds : Int × Int} :
    leaf.reportedRange = .ok bounds ↔
      (∀ side, leaf.isReported side = true) ∧ bounds = leaf.range := by
  unfold reportedRange
  simp only [except_bind_eq_ok, reported_eq_ok checked, pure, Except.pure, Except.ok.injEq]
  constructor
  · rintro ⟨_, ⟨low, rfl⟩, _, ⟨high, rfl⟩, rfl⟩
    refine ⟨fun side => ?_, rfl⟩
    cases side with
    | lowest => exact low
    | highest => exact high
  · rintro ⟨reports, rfl⟩
    exact ⟨_, ⟨reports .lowest, rfl⟩, _, ⟨reports .highest, rfl⟩, rfl⟩

/-- The bounds that checked leaves report are those that are reckoned with. -/
theorem mapM_reportedRange {leaves : List (Node α)} {bounds : List (Int × Int)}
    (checked : ∀ leaf ∈ leaves, ∀ sub ∈ leaf.subtrees, sub.Checked) :
    leaves.mapM reportedRange = .ok bounds ↔
      (∀ leaf ∈ leaves, ∀ side, leaf.isReported side = true) ∧ bounds = leaves.map range := by
  induction leaves generalizing bounds with
  | nil =>
      constructor
      · intro reported
        exact ⟨by simp, (Except.ok.inj reported).symm⟩
      · rintro ⟨-, rfl⟩
        rfl
  | cons leaf rest ih =>
      simp only [List.mapM_cons, except_bind_eq_ok, reportedRange_eq_ok (checked leaf (by simp)),
        ih fun leaf mem => checked leaf (by simp [mem]), pure, Except.pure, Except.ok.injEq,
        List.forall_mem_cons, List.map_cons]
      constructor
      · rintro ⟨_, ⟨own, rfl⟩, _, ⟨others, rfl⟩, rfl⟩
        exact ⟨⟨own, others⟩, rfl⟩
      · rintro ⟨⟨own, others⟩, rfl⟩
        exact ⟨_, ⟨own, rfl⟩, _, ⟨others, rfl⟩, rfl⟩

/-- Where a checked leaf does not report both bounds, a line is too long. -/
theorem reportedRange_eq_error {leaf : Node α} {fault : Fault}
    (checked : ∀ sub ∈ leaf.subtrees, sub.Checked)
    (refused : leaf.reportedRange = .error fault) : fault = .numberTooLong := by
  have unreported : ∀ {side}, leaf.reported side = .error fault → fault = .numberTooLong := by
    intro side unreported
    rw [reported_eq checked] at unreported
    split at unreported
    · cases unreported
    · exact (Except.error.inj unreported).symm
  rcases except_bind_eq_error.mp refused with low | ⟨least, -, refused⟩
  · exact unreported low
  rcases except_bind_eq_error.mp refused with high | ⟨greatest, -, refused⟩
  · exact unreported high
  · cases refused

theorem mapM_reportedRange_eq_error {leaves : List (Node α)} {fault : Fault}
    (checked : ∀ leaf ∈ leaves, ∀ sub ∈ leaf.subtrees, sub.Checked)
    (refused : leaves.mapM reportedRange = .error fault) : fault = .numberTooLong := by
  induction leaves with
  | nil => cases refused
  | cons leaf rest ih =>
      rw [List.forall_mem_cons] at checked
      rw [List.mapM_cons] at refused
      rcases except_bind_eq_error.mp refused with first | ⟨range, -, refused⟩
      · exact reportedRange_eq_error checked.1 first
      rcases except_bind_eq_error.mp refused with others | ⟨ranges, -, refused⟩
      · exact ih checked.2 others
      · cases refused

/-- An explosion of a tree of checked nodes is made if its leaves report their bounds and these
suit it. -/
theorem explosion?_eq_ok_iff_explodes {heard : α → Bool} {slot : α} {comparison : Text}
    {threshold limit : Int} {inner node : Node α} {position : Nat}
    (checked : ∀ sub ∈ inner.subtrees, sub.Checked) :
    ((explosion? (.memory heard) slot comparison threshold limit inner).remembered position).result
        = .ok node ↔
      ∃ sign, Comparison.ofText? comparison = some sign ∧ 0 ≤ limit ∧
        inner.Explodes ⟨sign, threshold, limit.toNat⟩ ∧
        node = explosion slot ⟨sign, threshold, limit.toNat⟩ inner := by
  have leaves : ∀ leaf ∈ inner.leaves, ∀ sub ∈ leaf.subtrees, sub.Checked :=
    fun leaf mem sub subMem => checked sub (subtrees_subset (inner.leaves_subset mem) subMem)
  rw [explosion?_eq_ok]
  constructor
  · rintro ⟨sign, known, possible, ⟨bounds, reported, suits⟩, rfl⟩
    obtain ⟨reports, rfl⟩ := (mapM_reportedRange leaves).mp reported
    exact ⟨sign, known, possible, ⟨reports, suits⟩, rfl⟩
  · rintro ⟨sign, known, possible, ⟨reports, suits⟩, rfl⟩
    exact ⟨sign, known, possible, ⟨_, (mapM_reportedRange leaves).mpr ⟨reports, rfl⟩, suits⟩, rfl⟩

/-! ### Constructed nodes -/

/-- The nodes that can be put together. There is one rule for each way of making a
node, and each asks for what its check asks for. -/
inductive Constructed : Node α → Prop where
  | sided (slot : α) (sides : Int) {d : Die} (made : Die.withSides sides = .ok d) :
      Constructed (.die slot d)
  | percentile (slot : α) : Constructed (.die slot .percentile)
  | fudge (slot : α) : Constructed (.die slot .fudge)
  | custom (slot : α) (faces : List Int) {d : Die} (made : Die.withFaces faces = .ok d) :
      Constructed (.die slot d)
  | pool (slot : α) {items : List (Node α)} (each : ∀ item ∈ items, Constructed item) :
      Constructed (.ofItems slot items)
  | arithmetic (slot : α) (operator : Text) (value : Int) {inner node : Node α}
      (built : Constructed inner) (made : arithmetic? slot operator value inner = .ok node) :
      Constructed node
  | selection (slot : α) (operator : Text) (threshold : Int) {inner node : Node α}
      (built : Constructed inner) (made : selection? slot operator threshold inner = .ok node) :
      Constructed node
  | explosion (heard : α → Bool) (slot : α) (comparison : Text) (threshold limit : Int)
      (position : Nat) {inner node : Node α} (built : Constructed inner)
      (made : ((explosion? (.memory heard) slot comparison threshold limit inner).remembered
        position).result = .ok node) :
      Constructed node

theorem checked_of_explosion? {heard : α → Bool} {slot : α} {comparison : Text}
    {threshold limit : Int} {inner node : Node α} {position : Nat}
    (built : ∀ sub ∈ inner.subtrees, sub.Checked)
    (made : ((explosion? (.memory heard) slot comparison threshold limit inner).remembered
      position).result = .ok node) :
    node.Checked := by
  obtain ⟨sign, -, -, explodes, rfl⟩ := (explosion?_eq_ok_iff_explodes built).mp made
  exact explodes

/-- Every node of the tree of a constructed node is checked. -/
theorem Constructed.checked {node : Node α} (built : node.Constructed) :
    ∀ sub ∈ node.subtrees, sub.Checked := by
  induction built with
  | sided slot sides made =>
      obtain ⟨atLeast, rfl⟩ := Die.withSides_eq_ok.mp made
      simp only [subtrees, inside_die, List.mem_singleton, forall_eq, Checked, Die.Checked,
        Die.size]
      omega
  | percentile slot => simp [subtrees, Checked, Die.Checked, Die.size]
  | fudge slot => simp [subtrees, Checked, Die.Checked, Die.size]
  | custom slot faces made =>
      obtain ⟨atLeast, rfl⟩ := Die.withFaces_eq_ok.mp made
      simpa [subtrees, Checked, Die.Checked, Die.size] using atLeast
  | @pool slot items _ ih =>
      intro sub mem
      rcases List.mem_cons.mp mem with rfl | inside
      · exact checked_ofItems slot items
      · rw [ofItems, inside_pool] at inside
        obtain ⟨item, itemMem, subMem⟩ := List.mem_flatMap.mp inside
        exact ih item (List.mem_filter.mp itemMem).1 sub subMem
  | arithmetic slot operator value _ made ih =>
      have self := checked_of_arithmetic? made
      obtain ⟨operation, -, -, -, rfl⟩ := arithmetic?_eq_ok.mp made
      intro sub mem
      rcases List.mem_cons.mp mem with rfl | inside
      · exact self
      · exact ih sub (by simpa using inside)
  | selection slot operator threshold _ made ih =>
      have self := checked_of_selection? made
      obtain ⟨s, poolSlot, items, -, rfl, -, -, -, rfl⟩ := selection?_eq_ok.mp made
      intro sub mem
      rcases List.mem_cons.mp mem with rfl | inside
      · exact self
      · exact ih sub (by simpa using inside)
  | explosion heard slot comparison threshold limit position _ made ih =>
      have self := checked_of_explosion? ih made
      obtain ⟨sign, -, -, -, rfl⟩ := explosion?_eq_ok.mp made
      intro sub mem
      rcases List.mem_cons.mp mem with rfl | inside
      · exact self
      · exact ih sub (by simpa using inside)

end DicePool.Node
