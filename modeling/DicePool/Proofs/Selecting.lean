/-
Module: DicePool.Proofs.Selecting
Purpose: How arithmetic and selections behave when the numbers they are given grow.
Main exports: total_eq_sum, PointwiseLe, PointwiseLe.mergeSort, PointwiseLe.select,
  Operation.raise_eq_pow, Operation.apply_le_apply, Selection.select_perm,
  Selection.select_le_select, Numeral.isWritable_iff
-/
import Mathlib.Algebra.Order.Ring.Int
import Mathlib.Algebra.Order.BigOperators.Group.List
import Mathlib.Algebra.Order.Ring.Abs
import Mathlib.Data.List.Forall2
import Mathlib.Data.List.Sort
import DicePool.Modify
import DicePool.Node.Bound

/-!
Rolls of a pool differ from the bounds of its items place by place, and a selection
sorts before it selects.  So what has to be known of sorting is that it keeps the order
place by place, although it may move the two lists differently.

Arithmetic is monotone, but for even powers.  Those are least at the value of a range
that is nearest to zero and greatest at an end of it, which `evenBase` finds.

A number that grows cannot be written any more from some power of ten on.
-/

namespace DicePool

@[simp] theorem total_eq_sum (results : List Int) : total results = results.sum := rfl

/-- The lists have the same length, and no value of the first is above the one in its
place in the second. -/
abbrev PointwiseLe (xs ys : List Int) : Prop :=
  List.Forall₂ (· ≤ ·) xs ys

namespace PointwiseLe

variable {xs ys : List Int}

theorem sum_le (le : PointwiseLe xs ys) : xs.sum ≤ ys.sum := by
  induction le with
  | nil => exact le_refl _
  | cons head _ ih =>
      rw [List.sum_cons, List.sum_cons]
      exact add_le_add head ih

/-- Insertion keeps the order of two sorted lists, wherever the inserted values land. -/
theorem orderedInsert (le : PointwiseLe xs ys) :
    xs.Pairwise (· ≤ ·) → ys.Pairwise (· ≤ ·) → ∀ {a b : Int}, a ≤ b →
      PointwiseLe (xs.orderedInsert (· ≤ ·) a) (ys.orderedInsert (· ≤ ·) b) := by
  induction le with
  | nil =>
      intro _ _ a b ab
      exact .cons ab .nil
  | @cons x y xs ys xy rest ih =>
      intro sortedX sortedY a b ab
      have sortedXs := sortedX.of_cons
      have sortedYs := sortedY.of_cons
      -- A head that is inserted into its own tail stays in front.
      have backX : xs.orderedInsert (· ≤ ·) x = x :: xs := by
        cases xs with
        | nil => rfl
        | cons x' xs =>
            exact List.orderedInsert_cons_of_le _ _ (List.rel_of_pairwise_cons sortedX (by simp))
      have backY : ys.orderedInsert (· ≤ ·) y = y :: ys := by
        cases ys with
        | nil => rfl
        | cons y' ys =>
            exact List.orderedInsert_cons_of_le _ _ (List.rel_of_pairwise_cons sortedY (by simp))
      rw [List.orderedInsert_cons, List.orderedInsert_cons]
      by_cases ax : a ≤ x <;> by_cases byy : b ≤ y
      · simpa [ax, byy] using ⟨ab, xy, rest⟩
      · have xb : x ≤ b := by omega
        have tail := ih sortedXs sortedYs xb
        rw [backX] at tail
        simpa [ax, byy] using ⟨by omega, tail⟩
      · have ay : a ≤ y := by omega
        have tail := ih sortedXs sortedYs ay
        rw [backY] at tail
        simpa [ax, byy] using ⟨by omega, tail⟩
      · have tail := ih sortedXs sortedYs ab
        simpa [ax, byy] using ⟨xy, tail⟩

theorem insertionSort (le : PointwiseLe xs ys) :
    PointwiseLe (xs.insertionSort (· ≤ ·)) (ys.insertionSort (· ≤ ·)) := by
  induction le with
  | nil => exact .nil
  | @cons x y xs ys xy _ ih =>
      rw [List.insertionSort_cons, List.insertionSort_cons]
      exact ih.orderedInsert (List.pairwise_insertionSort _ xs)
        (List.pairwise_insertionSort _ ys) xy

/-- Sorting keeps the order of two lists place by place. -/
theorem mergeSort (le : PointwiseLe xs ys) : PointwiseLe xs.mergeSort ys.mergeSort := by
  rw [List.mergeSort_eq_insertionSort (· ≤ ·), List.mergeSort_eq_insertionSort (· ≤ ·)]
  exact le.insertionSort

/-- A selection from greater values selects greater values. -/
theorem select (le : PointwiseLe xs ys) (s : Selection) (threshold : Nat) :
    PointwiseLe (s.select threshold xs) (s.select threshold ys) := by
  have sorted := le.mergeSort
  have length := sorted.length_eq
  cases s with
  | dropHighest =>
      simp only [Selection.select, length]
      exact List.forall₂_take _ sorted
  | dropLowest => exact List.forall₂_drop _ sorted
  | keepHighest =>
      simp only [Selection.select, length]
      exact List.forall₂_drop _ sorted
  | keepLowest => exact List.forall₂_take _ sorted

end PointwiseLe

/-- A selection does not see the order of the values. -/
theorem Selection.select_perm (s : Selection) (threshold : Nat) {xs ys : List Int}
    (perm : xs.Perm ys) : s.select threshold xs = s.select threshold ys := by
  have sorted : xs.mergeSort = ys.mergeSort := by
    refine List.Perm.eq_of_pairwise' (r := (· ≤ ·)) ?_ ?_ ?_
    · exact List.pairwise_mergeSort' (· ≤ ·) xs
    · exact List.pairwise_mergeSort' (· ≤ ·) ys
    · exact (List.mergeSort_perm xs _).trans (perm.trans (List.mergeSort_perm ys _).symm)
  simp only [Selection.select, sorted]

namespace Selection

/-- Where no value of a list is above the one in its place in another list, none that is
selected is above the one that is selected in its place, and neither are the sums.  The two
lists need not be ordered alike. -/
theorem select_le_select {xs ys : List Int} (lengths : xs.length = ys.length)
    (le : ∀ (i : Nat) (_ : i < xs.length) (_ : i < ys.length), xs[i] ≤ ys[i])
    (s : Selection) : ∀ threshold, 1 ≤ threshold →
      let low := s.select threshold xs
      let high := s.select threshold ys
      low.length = high.length ∧
        (∀ (i : Nat) (_ : i < low.length) (_ : i < high.length), low[i] ≤ high[i]) ∧
        total low ≤ total high := by
  intro threshold _ low high
  have values : PointwiseLe xs ys := List.forall₂_iff_get.mpr ⟨lengths, le⟩
  have selected : PointwiseLe low high := values.select s threshold
  obtain ⟨sameLength, each⟩ := List.forall₂_iff_get.mp selected
  exact ⟨sameLength, each, selected.sum_le⟩

/-- The greatest value of the one list stands where the other one has a small value, so that the
two highest values come from different places. -/
theorem select_le_select_elsewhere :
    let xs : List Int := [5, 1, 1, -2]
    let ys : List Int := [5, 6, 2, 7]
    (xs.length = ys.length ∧
      ∀ (i : Nat) (_ : i < xs.length) (_ : i < ys.length), xs[i] ≤ ys[i]) ∧
      keepHighest.select 2 xs = [1, 5] ∧ keepHighest.select 2 ys = [6, 7] ∧
      total (keepHighest.select 2 xs) ≤ total (keepHighest.select 2 ys) := by
  intro xs ys
  have le : ∀ (i : Nat) (_ : i < xs.length) (_ : i < ys.length), xs[i] ≤ ys[i] := by decide
  have low : keepHighest.select 2 xs = [1, 5] := by simp [select, List.mergeSort, xs]
  have high : keepHighest.select 2 ys = [6, 7] := by simp [select, List.mergeSort, ys]
  obtain ⟨-, -, sums⟩ := @select_le_select xs ys rfl le keepHighest 2 (by decide)
  exact ⟨⟨rfl, le⟩, low, high, sums⟩

end Selection

namespace Operation

/-- However a power is found, it is the product of so many factors. -/
theorem raise_eq_pow (base : Int) (exponent : Nat) :
    raise base exponent = base ^ exponent := by
  unfold raise
  split
  · next isZero =>
      subst isZero
      split
      · next noFactor => rw [noFactor, pow_zero]
      · next factors => exact (zero_pow factors).symm
  · split
    · next isOne => rw [isOne, one_pow]
    · split
      · next isNegOne =>
          subst isNegOne
          split
          · next even => exact (Nat.even_iff.mpr even).neg_one_pow.symm
          · next odd =>
              exact (Nat.odd_iff.mpr (Nat.mod_two_ne_zero.mp odd)).neg_one_pow.symm
      · rfl

/-- Monotone arithmetic keeps the order of its left-hand sides. -/
theorem apply_le_apply {operation : Operation} {value : Nat}
    (monotone : operation.isMonotone value = true) {a b : Int} (ab : a ≤ b) :
    operation.apply a value ≤ operation.apply b value := by
  cases operation with
  | add => simpa [apply] using ab
  | subtract => simpa [apply] using ab
  | multiply => exact mul_le_mul_of_nonneg_right ab (Int.natCast_nonneg value)
  | divide =>
      simp only [apply]
      rcases Nat.eq_zero_or_pos value with rfl | positive
      · simp
      · exact Int.tdiv_le_tdiv (by exact_mod_cast positive) ab
  | power =>
      have odd : Odd value := by
        rw [Nat.odd_iff]
        simp [isMonotone] at monotone
        omega
      simp only [apply, raise_eq_pow]
      exact odd.strictMono_pow.monotone ab

/-- Arithmetic that is not monotone is an even power. -/
theorem even_of_not_isMonotone {operation : Operation} {value : Nat}
    (notMonotone : operation.isMonotone value = false) :
    operation = .power ∧ Even value := by
  rw [Nat.even_iff]
  simpa [isMonotone] using notMonotone

/-- Even powers are ordered like the distances of their bases from zero. -/
theorem even_power_le_power {value : Nat} (even : Even value) {a b : Int}
    (le : a.natAbs ≤ b.natAbs) : power.apply a value ≤ power.apply b value := by
  simp only [apply, raise_eq_pow]
  rw [← even.pow_abs a, ← even.pow_abs b, Int.abs_eq_natAbs, Int.abs_eq_natAbs]
  exact pow_le_pow_left₀ (Int.natCast_nonneg _) (Int.ofNat_le.mpr le) value

end Operation

/-- The base found for the lowest even power is at least as near to zero as anything in
the range. -/
theorem natAbs_evenBase_lowest_le {low high x : Int} (lowLe : low ≤ x) (leHigh : x ≤ high) :
    (evenBase .lowest low high).natAbs ≤ x.natAbs := by
  simp only [evenBase]
  split
  · simp
  · next outside =>
      simp at outside
      split <;> omega

/-- The base found for the highest even power is at least as far from zero as anything in
the range. -/
theorem natAbs_le_evenBase_highest {low high x : Int} (lowLe : low ≤ x) (leHigh : x ≤ high) :
    x.natAbs ≤ (evenBase .highest low high).natAbs := by
  simp only [evenBase]
  split <;> omega

/-- Unless the range reaches to both sides of zero, the base that is found is one of its
ends. -/
theorem evenBase_eq_or (side : Extreme) {low high : Int} (oneSided : ¬(low < 0 ∧ 0 < high)) :
    evenBase side low high = low ∨ evenBase side low high = high := by
  cases side with
  | lowest =>
      simp only [evenBase]
      split
      · next around =>
          simp at around
          omega
      · split <;> simp
  | highest =>
      simp only [evenBase]
      split <;> simp

/-! ### Numbers that can be written -/

namespace Numeral

theorem isWritable_iff {n : Int} : isWritable n = true ↔ n.natAbs < 10 ^ digitLimit := by
  rw [isWritable, decide_eq_true_eq, ofNat]
  exact Nat.length_toDigits_le_iff (by decide) (by decide)

theorem isWritable_eq_false_iff {n : Int} : isWritable n = false ↔ 10 ^ digitLimit ≤ n.natAbs := by
  rw [← Bool.not_eq_true, isWritable_iff, Nat.not_lt]

/-- Whoever is not farther from zero than a number that can be written can be written. -/
theorem isWritable_of_natAbs_le {n m : Int} (writable : isWritable m = true)
    (le : n.natAbs ≤ m.natAbs) : isWritable n = true :=
  isWritable_iff.mpr (Nat.lt_of_le_of_lt le (isWritable_iff.mp writable))

/-- Between two numbers that can be written all can. -/
theorem isWritable_of_between {low n high : Int} (least : isWritable low = true)
    (greatest : isWritable high = true) (lowLe : low ≤ n) (leHigh : n ≤ high) :
    isWritable n = true := by
  rw [isWritable_iff] at least greatest ⊢
  omega

end Numeral

end DicePool
