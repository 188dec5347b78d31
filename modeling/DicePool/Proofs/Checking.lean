/-
Module: DicePool.Proofs.Checking
Purpose: What the checks by which nodes are made let through, and what they leave behind in a node.
Main exports: except_map_eq_ok, except_bind_eq_ok, except_bind_eq_error, Die.Checked,
  Explosion.Suits, Node.Checked, Node.arithmetic?_eq_ok, Node.selection?_eq_ok,
  Node.explosionFault?_eq_none
-/
import DicePool.Node.Make
import DicePool.Proofs.Reckoning
import DicePool.Proofs.Tree

/-!
Each way of making a node has its check, and `Node.Checked` is the condition on a node that its
check leaves behind.  It speaks of the node and of what the node is directly made of.
-/

namespace DicePool

section

variable {β γ : Type} {result : Except Fault β} {value : γ}

theorem except_map_eq_ok {f : β → γ} :
    result.map f = .ok value ↔ ∃ made, result = .ok made ∧ f made = value := by
  cases result <;> simp [Except.map]

theorem except_bind_eq_ok {next : β → Except Fault γ} :
    (result >>= next) = .ok value ↔ ∃ made, result = .ok made ∧ next made = .ok value := by
  cases result <;> simp [bind, Except.bind]

theorem except_bind_eq_error {next : β → Except Fault γ} {fault : Fault} :
    (result >>= next) = .error fault ↔
      result = .error fault ∨ ∃ made, result = .ok made ∧ next made = .error fault := by
  cases result <;> simp [bind, Except.bind]

theorem except_ok_bind (value : β) (next : β → Except Fault γ) :
    (Except.ok value >>= next) = next value := rfl

end

/-- A die has at least two faces. -/
def Die.Checked (d : Die) : Prop :=
  2 ≤ d.size

theorem Die.withSides_eq_ok {sides : Int} {d : Die} :
    Die.withSides sides = .ok d ↔ 2 ≤ sides ∧ d = .sided sides.toNat := by
  unfold Die.withSides
  split <;> simp [eq_comm] <;> omega

theorem Die.withFaces_eq_ok {faces : List Int} {d : Die} :
    Die.withFaces faces = .ok d ↔ 2 ≤ faces.length ∧ d = .custom faces := by
  unfold Die.withFaces
  split <;> simp [eq_comm] <;> omega

theorem checkQuantity_eq_ok {quantity : Int} {count : Nat} :
    checkQuantity quantity = .ok count ↔ 1 ≤ count ∧ quantity = count := by
  unfold checkQuantity
  split
  · simp
    omega
  · simp only [Except.ok.injEq]
    omega

/-- A pool that suffices for a threshold has items. -/
theorem Selection.ne_nil_of_fits {β : Type} (s : Selection) {threshold : Nat} {items : List β}
    (positive : 1 ≤ threshold) (fits : s.fits threshold items.length = true) : items ≠ [] := by
  rintro rfl
  cases s <;> simp [Selection.fits] at fits <;> omega

/-- Dice with these bounds can be exploded: each can stop, some can explode, and none
explodes below zero. -/
structure Explosion.Suits (rule : Explosion) (bounds : List (Int × Int)) : Prop where
  canStop : ∀ range ∈ bounds, rule.canStop range.1 range.2 = true
  canExplode : ∃ range ∈ bounds, rule.canExplode range.1 range.2 = true
  notBelowZero : ∀ range ∈ bounds, 0 ≤ rule.lowestExplosion range.1 range.2

/-- Neither the order of the dice nor the limit matters to what suits them. -/
theorem Explosion.Suits.of_perm {comparison : Comparison} {threshold : Int} {limit : Nat}
    {bounds others : List (Int × Int)} (suits : Suits ⟨comparison, threshold, limit⟩ bounds)
    (perm : bounds.Perm others) (limit' : Nat) : Suits ⟨comparison, threshold, limit'⟩ others where
  canStop range mem := suits.canStop range (perm.mem_iff.mpr mem)
  canExplode := by
    obtain ⟨range, mem, explodes⟩ := suits.canExplode
    exact ⟨range, perm.mem_iff.mp mem, explodes⟩
  notBelowZero range mem := suits.notBelowZero range (perm.mem_iff.mpr mem)

namespace Node

variable {α : Type}

/-- Both bounds of the node. -/
def range (node : Node α) : Int × Int :=
  (node.minimum, node.maximum)

theorem range_eq {β : Type} {one : Node α} {two : Node β}
    (same : ∀ side, two.extreme side = one.extreme side) : range two = range one := by
  rw [range, range, ← extreme_lowest, ← extreme_highest, same, same, extreme_lowest,
    extreme_highest]

theorem range_die (slot : α) (d : Die) : (die slot d).range = (d.lowest, d.highest) := by
  rw [range, ← extreme_lowest, ← extreme_highest, extreme_die, extreme_die]
  rfl

theorem explosionFault?_eq_none {rule : Explosion} {spelling : Text}
    {bounds : List (Int × Int)} :
    explosionFault? rule spelling bounds = none ↔ rule.Suits bounds := by
  unfold explosionFault?
  constructor
  · intro noFault
    split at noFault
    · simp at noFault
    split at noFault
    · simp at noFault
    split at noFault
    · simp at noFault
    next stop explode zero =>
      refine ⟨?_, ?_, ?_⟩
      · simpa using stop
      · simpa using explode
      · simpa using zero
  · rintro ⟨stop, ⟨range, mem, explode⟩, zero⟩
    rw [if_neg, if_neg, if_neg]
    · simpa using zero
    · simpa using ⟨range.1, range.2, mem, explode⟩
    · simpa using stop

/-! ### What each check lets through -/

theorem arithmetic?_eq_ok {slot : α} {operator : Text} {value : Int} {inner node : Node α} :
    arithmetic? slot operator value inner = .ok node ↔
      ∃ operation, Operation.ofText? operator = some operation ∧ 0 ≤ value ∧
        ¬(operation = .divide ∧ value = 0) ∧
        node = arithmetic slot operation value.toNat inner := by
  unfold arithmetic?
  cases Operation.ofText? operator with
  | none => simp
  | some operation =>
      simp only [Option.some.injEq, exists_eq_left']
      split
      · simp; omega
      · split
        · next division => simp [division]
        · next negative division => simp [eq_comm, division]; omega

theorem selection?_eq_ok {slot : α} {operator : Text} {threshold : Int} {inner node : Node α} :
    selection? slot operator threshold inner = .ok node ↔
      ∃ s poolSlot items, Selection.ofText? (Text.upper operator) = some s ∧
        inner = pool poolSlot items ∧ items ≠ [] ∧ 1 ≤ threshold ∧
        s.fits threshold items.length = true ∧
        node = selection slot s threshold.toNat poolSlot items := by
  unfold selection?
  constructor
  · intro made
    cases found : Selection.ofText? (Text.upper operator) with
    | none => simp [found] at made
    | some s =>
        simp only [found] at made
        split at made
        · next poolSlot item rest =>
            split at made
            · simp at made
            split at made
            · next positive fits =>
                cases made
                exact ⟨s, poolSlot, item :: rest, rfl, rfl, by simp, by omega, fits, rfl⟩
            · simp at made
        · simp at made
  · rintro ⟨s, poolSlot, items, found, rfl, nonempty, positive, fits, rfl⟩
    obtain ⟨item, rest, rfl⟩ := List.exists_cons_of_ne_nil nonempty
    simp only [found]
    rw [if_neg (by omega), if_pos fits]

/-- The node can be exploded by the rule: its leaves report bounds, and these suit the rule. -/
structure Explodes (inner : Node α) (rule : Explosion) : Prop where
  reports : ∀ leaf ∈ inner.leaves, ∀ side, leaf.isReported side = true
  suits : rule.Suits (inner.leaves.map range)

/-- What the checks of its constructor have left behind in a node. -/
def Checked : Node α → Prop
  | die _ d => d.Checked
  | pool _ items => ∀ item ∈ items, item.isEmptyPool = false
  | arithmetic _ operation value _ => ¬(operation = .divide ∧ value = 0)
  | selection _ s threshold _ items => 1 ≤ threshold ∧ s.fits threshold items.length = true
  | explosion _ rule inner => inner.Explodes rule

theorem checked_ofItems (slot : α) (items : List (Node α)) : (ofItems slot items).Checked := by
  intro item mem
  simpa using (List.mem_filter.mp mem).2

theorem checked_of_arithmetic? {slot : α} {operator : Text} {value : Int} {inner node : Node α}
    (made : arithmetic? slot operator value inner = .ok node) : node.Checked := by
  obtain ⟨operation, -, nonneg, noDivision, rfl⟩ := arithmetic?_eq_ok.mp made
  rintro ⟨division, zero⟩
  exact noDivision ⟨division, by omega⟩

theorem checked_of_selection? {slot : α} {operator : Text} {threshold : Int} {inner node : Node α}
    (made : selection? slot operator threshold inner = .ok node) : node.Checked := by
  obtain ⟨s, poolSlot, items, -, rfl, -, positive, fits, rfl⟩ := selection?_eq_ok.mp made
  refine ⟨by omega, ?_⟩
  rwa [Int.toNat_of_nonneg (by omega)]

end Node

end DicePool
