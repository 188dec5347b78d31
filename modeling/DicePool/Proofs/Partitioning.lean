/-
Module: DicePool.Proofs.Partitioning
Purpose: What a selection takes and what it leaves are the two ends of the sorted values.
Main exports: Selection.opposite, Selection.isLower, Selection.select_append_opposite,
  Selection.length_select, Selection.diff_select_perm, Selection.select_partitions
-/
import DicePool.Proofs.Selecting

/-!
Keeping the lowest values and dropping them are two halves of one cut through the sorted
values, and so are dropping and keeping the highest: `Selection.opposite`.  The one that takes
the lower half stands first (`Selection.isLower`), and the two halves together are the sorted
values again (`Selection.select_append_opposite`).

What a selection leaves out is therefore what its opposite selects, each value as often as it
was there (`Selection.diff_select_perm`), whatever values are equal to each other and however
few there are.
-/

namespace DicePool

/-- What is left of a list when a part of it is taken away, value by value. -/
theorem diff_perm_of_append {whole part others : List Int} (split : (part ++ others).Perm whole) :
    (whole.diff part).Perm others := by
  have contained : ∀ x ∈ part, part.count x ≤ whole.count x := by
    intro x _
    rw [← split.count_eq x, List.count_append]
    exact Nat.le_add_right _ _
  have again : (part ++ whole.diff part).Perm (part ++ others) :=
    (List.subperm_append_diff_self_of_count_le contained).trans split.symm
  exact (List.perm_append_left_iff part).mp again

namespace Selection

/-- The selection that takes what this one leaves out. -/
def opposite : Selection → Selection
  | dropHighest => keepHighest
  | dropLowest => keepLowest
  | keepHighest => dropHighest
  | keepLowest => dropLowest

/-- Whether the lower values are selected. -/
def isLower : Selection → Bool
  | dropHighest | keepLowest => true
  | dropLowest | keepHighest => false

@[simp] theorem opposite_opposite (s : Selection) : s.opposite.opposite = s := by
  cases s <;> rfl

theorem isLower_opposite (s : Selection) : s.opposite.isLower = !s.isLower := by
  cases s <;> rfl

variable {s : Selection} (threshold : Nat) (values : List Int)

/-- The lower values and then the others are the sorted values. -/
theorem select_append_opposite (lower : s.isLower = true) :
    s.select threshold values ++ s.opposite.select threshold values = values.mergeSort := by
  cases s with
  | dropHighest => exact List.take_append_drop _ _
  | keepLowest => exact List.take_append_drop _ _
  | dropLowest => contradiction
  | keepHighest => contradiction

/-- A selection and its opposite share the values between them. -/
theorem select_append_opposite_perm (s : Selection) :
    (s.select threshold values ++ s.opposite.select threshold values).Perm values := by
  cases lower : s.isLower with
  | true =>
      rw [select_append_opposite threshold values lower]
      exact List.mergeSort_perm values _
  | false =>
      have otherLower : s.opposite.isLower = true := by rw [isLower_opposite, lower]; rfl
      have halves := select_append_opposite threshold values otherLower
      rw [opposite_opposite] at halves
      refine List.perm_append_comm.trans ?_
      rw [halves]
      exact List.mergeSort_perm values _

/-- What is kept are `threshold` values, and what is left after dropping are all but these; of
fewer values all are kept and none is left. -/
theorem length_select (s : Selection) :
    (s.select threshold values).length =
      match s with
      | keepLowest | keepHighest => min threshold values.length
      | dropLowest | dropHighest => values.length - threshold := by
  cases s with
  | keepHighest =>
      simp [select]
      omega
  | _ => simp [select]

/-- What a selection leaves out is what its opposite selects. -/
theorem diff_select_perm (s : Selection) :
    (values.diff (s.select threshold values)).Perm (s.opposite.select threshold values) :=
  diff_perm_of_append (select_append_opposite_perm threshold values s)

/-- The lower values are not above the others. -/
theorem select_le_opposite (lower : s.isLower = true) {a b : Int}
    (selected : a ∈ s.select threshold values)
    (left : b ∈ s.opposite.select threshold values) : a ≤ b := by
  have sorted : values.mergeSort.Pairwise (· ≤ ·) := List.pairwise_mergeSort' (· ≤ ·) values
  rw [← select_append_opposite threshold values lower] at sorted
  exact (List.pairwise_append.mp sorted).2.2 a selected b left

/-- Keeping so many of the highest values is dropping all others, which are the lowest. -/
theorem keepHighest_eq_dropLowest :
    keepHighest.select threshold values = dropLowest.select (values.length - threshold) values := by
  simp [select]

/-- Selecting cuts the sorted values in two.  Keeping the lowest values and dropping them give
the sorted values one after the other, and so do dropping the highest values and keeping them.
No value that keeping the lowest or dropping the highest selects is above one that it leaves
out, and none that the other two select is below one.  To keep the highest values is to drop as
many of the lowest as there are others, and the order of the values never matters. -/
theorem select_partitions (values : List Int) : ∀ threshold, 1 ≤ threshold →
    (∃ sorted : List Int, sorted.Perm values ∧ sorted.Pairwise (· ≤ ·) ∧
      keepLowest.select threshold values ++ dropLowest.select threshold values = sorted ∧
      dropHighest.select threshold values ++ keepHighest.select threshold values = sorted) ∧
    ((keepLowest.select threshold values).length = min threshold values.length ∧
      (dropLowest.select threshold values).length = values.length - threshold ∧
      (dropHighest.select threshold values).length = values.length - threshold ∧
      (keepHighest.select threshold values).length = min threshold values.length) ∧
    (∀ s, s = keepLowest ∨ s = dropHighest → ∀ a ∈ s.select threshold values,
      ∀ b ∈ values.diff (s.select threshold values), a ≤ b) ∧
    (∀ s, s = keepHighest ∨ s = dropLowest → ∀ a ∈ s.select threshold values,
      ∀ b ∈ values.diff (s.select threshold values), b ≤ a) ∧
    (threshold < values.length → keepHighest.select threshold values
      = dropLowest.select (values.length - threshold) values) ∧
    ∀ (s : Selection) (others : List Int), others.Perm values →
      s.select threshold others = s.select threshold values := by
  intro threshold _
  refine ⟨⟨values.mergeSort, List.mergeSort_perm values _, List.pairwise_mergeSort' (· ≤ ·) values,
      select_append_opposite threshold values rfl, select_append_opposite threshold values rfl⟩,
    ⟨?_, ?_, ?_, ?_⟩, ?_, ?_, fun _ => keepHighest_eq_dropLowest threshold values,
    fun s others perm => s.select_perm threshold perm⟩
  · exact length_select threshold values keepLowest
  · exact length_select threshold values dropLowest
  · exact length_select threshold values dropHighest
  · exact length_select threshold values keepHighest
  · intro s which a selected b left
    have lower : s.isLower = true := by rcases which with rfl | rfl <;> rfl
    exact select_le_opposite threshold values lower selected
      ((diff_select_perm threshold values s).mem_iff.mp left)
  · intro s which a selected b left
    have lower : s.opposite.isLower = true := by rcases which with rfl | rfl <;> rfl
    have others := (diff_select_perm threshold values s).mem_iff.mp left
    exact select_le_opposite threshold values lower others (by rwa [opposite_opposite])

/-- Of five values the threshold falls between two that are equal, and of two values it asks for
more than there are. -/
theorem select_partitions_ties :
    let values : List Int := [3, -1, 3, 2, 3]
    1 ≤ 3 ∧ keepHighest.select 3 values = dropLowest.select 2 values ∧
      (∀ b ∈ values.diff (keepLowest.select 3 values), ∀ a ∈ keepLowest.select 3 values, a ≤ b) ∧
      keepLowest.select 3 [3, 2, 3, -1, 3] = keepLowest.select 3 values ∧
      (dropHighest.select 3 [7, 4]).length = 0 ∧ (keepHighest.select 3 [7, 4]).length = 2 := by
  intro values
  obtain ⟨-, -, lower, -, highest, order⟩ := select_partitions values 3 (by decide)
  obtain ⟨-, ⟨-, -, dropped, kept⟩, -⟩ := select_partitions [7, 4] 3 (by decide)
  refine ⟨by decide, highest (by decide), fun b left a selected => ?_, ?_, dropped, kept⟩
  · exact lower keepLowest (.inl rfl) a selected b left
  · exact order keepLowest [3, 2, 3, -1, 3] (by decide)

end Selection

end DicePool
