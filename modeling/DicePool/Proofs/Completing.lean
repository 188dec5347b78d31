/-
Module: DicePool.Proofs.Completing
Purpose: An evaluation comes to what is reckoned, or it ends at the first line that is too long.
Main exports: writtenOf, Comes, Node.comes_bound, Node.comes_roll, Node.reply_of_written,
  Node.reply_of_not_written, Node.reply_eq_ok, Node.reported_eq
-/
import Mathlib.Data.List.TakeWhile
import DicePool.Proofs.Checking
import DicePool.Proofs.Listening

/-!
On a tree of checked nodes nothing but the length of a number ends an evaluation: a die has faces
and nothing is divided by zero.  So an evaluation goes through the steps that are reckoned, and it
comes to the result if the lines of all of them can be written.  Where one cannot, the evaluation
ends there, with the steps before it told and the draws before it read (`Comes`).

This carries over from parts to wholes in each way in which evaluations are put together, and so it
holds of the bounds and the rolls of a tree: `Node.comes_bound`, `Node.comes_roll`.
-/

namespace DicePool

variable {α β γ : Type}

/-- The steps before the first whose line cannot be written. -/
def writtenOf (entries : List (Entry α)) : List (Entry α) :=
  entries.takeWhile Entry.isWritten

theorem writtenOf_append_of_all {entries : List (Entry α)}
    (written : entries.all Entry.isWritten = true) (later : List (Entry α)) :
    writtenOf (entries ++ later) = entries ++ writtenOf later :=
  List.takeWhile_append_of_pos (List.all_eq_true.mp written)

/-- What comes after a line that cannot be written is left out. -/
theorem writtenOf_append_of_not {entries : List (Entry α)}
    (tooLong : entries.all Entry.isWritten = false) (later : List (Entry α)) :
    writtenOf (entries ++ later) = writtenOf entries := by
  rw [writtenOf, List.takeWhile_append, if_neg]
  · rfl
  · intro whole
    have all := List.takeWhile_eq_self_iff.mp
      ((List.takeWhile_prefix Entry.isWritten).eq_of_length whole)
    rw [List.all_eq_true.mpr all] at tooLong
    exact Bool.noConfusion tooLong

/-- From the position on the evaluation goes through the steps. It comes to the value and reads the
stream as far as to `next` if all lines can be written, and else it ends before the first that
cannot. -/
structure Comes (evaluation : Evaluation (Array (Entry α)) β) (position : Nat) (value : β)
    (next : Nat) (entries : List (Entry α)) : Prop where
  forward : position ≤ next
  finishes : entries.all Entry.isWritten = true → ∀ known,
    evaluation.run ⟨position, known⟩ = (.ok value, ⟨next, known ++ entries.toArray⟩)
  stops : entries.all Entry.isWritten = false → ∀ known, ∃ stop, position ≤ stop ∧ stop ≤ next ∧
    evaluation.run ⟨position, known⟩
      = (.error .numberTooLong, ⟨stop, known ++ (writtenOf entries).toArray⟩)

namespace Comes

open Evaluation

/-- What takes no step comes to its value. -/
theorem silent {evaluation : Evaluation (Array (Entry α)) β} {position next : Nat} {value : β}
    (forward : position ≤ next)
    (ran : ∀ known, evaluation.run ⟨position, known⟩ = (.ok value, ⟨next, known⟩)) :
    Comes evaluation position value next [] where
  forward := forward
  finishes _ known := by simp [ran]
  stops tooLong := by simp at tooLong

theorem pure (value : β) (position : Nat) :
    Comes (Pure.pure value : Evaluation (Array (Entry α)) β) position value position [] :=
  silent (Nat.le_refl _) fun _ => rfl

theorem answer (value : β) (position : Nat) :
    Comes (Evaluation.answer (.ok value) : Evaluation (Array (Entry α)) β) position value position
      [] :=
  silent (Nat.le_refl _) fun _ => rfl

theorem draw (draws : Draws) (position : Nat) :
    Comes (Evaluation.draw draws : Evaluation (Array (Entry α)) Nat) position (draws position)
      (position + 1) [] :=
  silent (Nat.le_succ _) fun _ => rfl

theorem tell (node : Node α) (measure : Measure) (line : Line) (result : Int) (position : Nat) :
    Comes (Evaluation.tell (.memory everySlot) node measure line result) position result position
      [⟨node, measure, line, result⟩] where
  forward := Nat.le_refl _
  finishes written known := by
    have writable : line.isWritable = true := by simpa [Entry.isWritten] using written
    rw [run_tell writable]
    simp [Listener.memory]
  stops tooLong known := by
    have unwritable : line.isWritable = false := by simpa [Entry.isWritten] using tooLong
    refine ⟨position, Nat.le_refl _, Nat.le_refl _, ?_⟩
    rw [run_tell_of_not unwritable]
    simp [writtenOf, Entry.isWritten, unwritable]

/-- One evaluation after the other goes through the steps of both, up to the first line that cannot
be written. -/
theorem bind {evaluation : Evaluation (Array (Entry α)) β}
    {later : β → Evaluation (Array (Entry α)) γ} {position next last : Nat} {value : β} {result : γ}
    {entries others : List (Entry α)} (first : Comes evaluation position value next entries)
    (second : Comes (later value) next result last others) :
    Comes (evaluation >>= later) position result last (entries ++ others) where
  forward := Nat.le_trans first.forward second.forward
  finishes written known := by
    rw [List.all_append, Bool.and_eq_true] at written
    rw [run_bind_of_ok (first.finishes written.1 known), second.finishes written.2]
    simp
  stops tooLong known := by
    cases written : entries.all Entry.isWritten with
    | false =>
        obtain ⟨stop, atLeast, atMost, ran⟩ := first.stops written known
        refine ⟨stop, atLeast, Nat.le_trans atMost second.forward, ?_⟩
        rw [run_bind_of_error ran, writtenOf_append_of_not written]
    | true =>
        rw [List.all_append, written, Bool.true_and] at tooLong
        obtain ⟨stop, atLeast, atMost, ran⟩ := second.stops tooLong (known ++ entries.toArray)
        refine ⟨stop, Nat.le_trans first.forward atLeast, atMost, ?_⟩
        rw [run_bind_of_ok (first.finishes written known), ran, writtenOf_append_of_all written]
        simp

/-- What is done with an answer takes no step. -/
theorem map {evaluation : Evaluation (Array (Entry α)) β} {position next : Nat} {value : β}
    {entries : List (Entry α)} (f : β → γ) (comes : Comes evaluation position value next entries) :
    Comes (evaluation >>= fun value => Pure.pure (f value)) position (f value) next entries := by
  rw [← List.append_nil entries]
  exact comes.bind (.pure (f value) next)

/-- An answer that is there takes no step. -/
theorem answered {later : β → Evaluation (Array (Entry α)) γ} {position next : Nat} {value : β}
    {result : γ} {answer : Except Fault β} {entries : List (Entry α)} (found : answer = .ok value)
    (comes : Comes (later value) position result next entries) :
    Comes (Evaluation.answer answer >>= later) position result next entries := by
  rw [found, ← List.nil_append entries]
  exact (Comes.answer value position).bind comes

end Comes

/-- The evaluation goes through the steps of the roller. -/
def ComesRolling (evaluation : Evaluation (Array (Entry α)) Int) (roller : Roller α) : Prop :=
  ∀ position,
    Comes evaluation position (roller position).value (roller position).next
      (roller position).entries

section

variable {evaluations : List (Evaluation (Array (Entry α)) Int)} {rollers : List (Roller α)}

theorem comes_each (same : List.Forall₂ ComesRolling evaluations rollers) (position : Nat) :
    Comes (.each evaluations) position (rollAll rollers position).values
      (rollAll rollers position).next (rollAll rollers position).entries := by
  induction same generalizing position with
  | nil => exact .pure [] position
  | cons first _ ih => exact (first position).bind ((ih _).map _)

theorem comes_repeated (again : Int → Bool) {evaluation : Evaluation (Array (Entry α)) Int}
    {roller : Roller α} (same : ComesRolling evaluation roller) (limit position : Nat) :
    Comes (.repeated again evaluation limit) position (rerolls again roller limit position).values
      (rerolls again roller limit position).next (rerolls again roller limit position).entries := by
  induction limit generalizing position with
  | zero => exact (same position).map fun only => [only]
  | succ limit ih =>
      rw [Evaluation.repeated, rerolls]
      cases matched : again (roller position).value with
      | true =>
          refine (same position).bind ?_
          simp only [matched, if_true]
          exact (ih _).map _
      | false =>
          simp only [Bool.false_eq_true, if_false]
          rw [← List.append_nil (roller position).entries]
          refine (same position).bind ?_
          simp only [matched, Bool.false_eq_true, if_false]
          exact .pure _ _

theorem comes_exploded (rule : Explosion) (same : List.Forall₂ ComesRolling evaluations rollers)
    (position : Nat) :
    Comes (.exploded rule evaluations) position (explodeAll rule rollers position).values
      (explodeAll rule rollers position).next (explodeAll rule rollers position).entries := by
  induction same generalizing position with
  | nil => exact .pure [] position
  | cons first _ ih =>
      exact (comes_repeated rule.matches? first rule.limit position).bind ((ih _).map _)

end

/-! ### Nothing is missing -/

theorem Die.reported_eq {d : Die} (checked : d.Checked) (side : Extreme) :
    d.reported side = .ok (d.extreme side) := by
  cases d with
  | custom faces =>
      have nonempty : faces ≠ [] :=
        List.ne_nil_of_length_pos (Nat.lt_of_lt_of_le Nat.two_pos checked)
      obtain ⟨face, rest, rfl⟩ := List.exists_cons_of_ne_nil nonempty
      rfl
  | _ => rfl

theorem Die.shown_eq {d : Die} (checked : d.Checked) (draw : Nat) :
    d.shown draw = .ok (d.face draw) :=
  if_neg (Nat.ne_of_gt (Nat.lt_of_lt_of_le Nat.two_pos checked))

theorem Operation.calculate_eq {operation : Operation} {value : Nat}
    (noDivision : ¬(operation = .divide ∧ value = 0)) (lhs : Int) :
    operation.calculate lhs value = .ok (operation.apply lhs value) :=
  if_neg noDivision

namespace Node

/-! ### Bounds -/

theorem comes_boundEach {items : List (Node α)} {side : Extreme} {position : Nat}
    (each : ∀ item ∈ items, Comes (item.askBound (.memory everySlot) side) position
      (item.bound side).value position (item.bound side).entries) :
    Comes (askBoundEach (.memory everySlot) items side) position (boundEach items side).values
      position (boundEach items side).entries := by
  induction items with
  | nil => exact .pure [] position
  | cons node rest ih =>
      have others := ih fun item mem => each item (by simp [mem])
      exact (each node (by simp)).bind (others.map _)

/-- A bound of a tree of checked nodes goes through the steps that are reckoned. -/
theorem comes_bound {node : Node α} (checked : ∀ sub ∈ node.subtrees, sub.Checked) (side : Extreme)
    (position : Nat) :
    Comes (node.askBound (.memory everySlot) side) position (node.bound side).value position
      (node.bound side).entries := by
  refine induction_everywhere
    (motive := fun node => ∀ side, Comes (node.askBound (.memory everySlot) side) position
      (node.bound side).value position (node.bound side).entries)
    (fun node self ih side => ?_) checked side
  cases node with
  | die slot d => exact .answered (Die.reported_eq self side) (.tell _ _ _ _ _)
  | pool slot items =>
      exact (comes_boundEach fun item mem => ih item (item_mem_inside_pool slot mem) side).bind
        (.tell _ _ _ _ _)
  | arithmetic slot operation value inner =>
      have base := ih inner (by simp)
      rw [askBound, bound]
      split
      · exact (base side).bind (.answered (Operation.calculate_eq self _) (.tell _ _ _ _ _))
      · dsimp only
        rw [List.append_assoc]
        exact (base .lowest).bind
          ((base .highest).bind (.answered (Operation.calculate_eq self _) (.tell _ _ _ _ _)))
  | selection slot s threshold poolSlot items =>
      exact (comes_boundEach fun item mem =>
        ih item (item_mem_inside_selection slot s threshold poolSlot mem) side).bind
          (.tell _ _ _ _ _)
  | explosion slot rule inner =>
      cases side with
      | lowest => exact (ih inner (by simp) .lowest).bind (.tell _ _ _ _ _)
      | highest => exact .tell _ _ _ _ _

/-! ### Rolls -/

theorem comes_inRow {draws : Draws} {nodes : List (Node α)}
    (each : ∀ node ∈ nodes,
      ComesRolling (node.askRoll (.memory everySlot) draws) (node.roll draws)) :
    List.Forall₂ ComesRolling (nodes.map (askRoll (.memory everySlot) draws))
      (nodes.map (roll draws)) := by
  rw [List.forall₂_map_left_iff, List.forall₂_map_right_iff, List.forall₂_same]
  exact each

/-- A roll of a tree of checked nodes goes through the steps that are reckoned. -/
theorem comes_roll (draws : Draws) {node : Node α} (checked : ∀ sub ∈ node.subtrees, sub.Checked) :
    ComesRolling (node.askRoll (.memory everySlot) draws) (node.roll draws) := by
  refine induction_everywhere
    (motive := fun node => ComesRolling (node.askRoll (.memory everySlot) draws) (node.roll draws))
    (fun node self ih position => ?_) checked
  cases node with
  | die slot d =>
      rw [askRoll_die, roll_die]
      exact (Comes.draw draws position).bind (.answered (Die.shown_eq self _) (.tell _ _ _ _ _))
  | pool slot items =>
      have each := comes_inRow fun item mem => ih item (item_mem_inside_pool slot mem)
      rw [askRoll_pool, roll_pool]
      exact (comes_each each position).bind (.tell _ _ _ _ _)
  | arithmetic slot operation value inner =>
      rw [askRoll_arithmetic, roll_arithmetic]
      exact (ih inner (by simp) position).bind
        (.answered (Operation.calculate_eq self _) (.tell _ _ _ _ _))
  | selection slot s threshold poolSlot items =>
      have each := comes_inRow fun item mem =>
        ih item (item_mem_inside_selection slot s threshold poolSlot mem)
      rw [askRoll_selection, roll_selection]
      exact (comes_each each position).bind (.tell _ _ _ _ _)
  | explosion slot rule inner =>
      have leaves := comes_inRow fun leaf mem => ih leaf (leaf_mem_inside_explosion slot rule mem)
      rw [askRoll_explosion, roll_explosion]
      exact (comes_exploded rule leaves position).bind (.tell _ _ _ _ _)

/-! ### Questions -/

/-- A question to a tree of checked nodes goes through the steps that are reckoned. -/
theorem comes_ask (draws : Draws) {node : Node α} (checked : ∀ sub ∈ node.subtrees, sub.Checked)
    (measure : Measure) :
    ComesRolling (node.ask (.memory everySlot) draws measure) (node.reckon draws measure) := by
  cases measure with
  | roll => exact comes_roll draws checked
  | minimum => exact fun position => comes_bound checked .lowest position
  | maximum => exact fun position => comes_bound checked .highest position

section

variable (heard : α → Bool) (draws : Draws) {node : Node α}
  (checked : ∀ sub ∈ node.subtrees, sub.Checked) (measure : Measure) (position : Nat)

include checked

/-- Where all lines can be written, a question is answered with what is reckoned. -/
theorem reply_of_written
    (written : (node.reckon draws measure position).entries.all Entry.isWritten = true) :
    node.reply heard draws measure position =
      ⟨.ok (node.reckon draws measure position).value, (node.reckon draws measure position).next,
        heardOf heard (node.reckon draws measure position).entries⟩ := by
  have ran := (comes_ask draws checked measure position).finishes written #[]
  rw [reply_eq_restrict, reply, Evaluation.remembered, ran]
  simp [Outcome.restrict]

/-- Where a line cannot be written, the question ends there. -/
theorem reply_of_not_written
    (tooLong : (node.reckon draws measure position).entries.all Entry.isWritten = false) :
    ∃ stop, position ≤ stop ∧ stop ≤ (node.reckon draws measure position).next ∧
      node.reply heard draws measure position =
        ⟨.error .numberTooLong, stop,
          heardOf heard (writtenOf (node.reckon draws measure position).entries)⟩ := by
  obtain ⟨stop, atLeast, atMost, ran⟩ :=
    (comes_ask draws checked measure position).stops tooLong #[]
  refine ⟨stop, atLeast, atMost, ?_⟩
  rw [reply_eq_restrict, reply, Evaluation.remembered, ran]
  simp [Outcome.restrict]

theorem result_reply_eq :
    (node.reply heard draws measure position).result =
      if (node.reckon draws measure position).entries.all Entry.isWritten then
        .ok (node.reckon draws measure position).value
      else .error .numberTooLong := by
  split
  · next written => rw [reply_of_written heard draws checked measure position written]
  · next tooLong =>
      obtain ⟨_, _, _, same⟩ :=
        reply_of_not_written heard draws checked measure position (by simpa using tooLong)
      rw [same]

/-- No more draws are read than are reckoned with. -/
theorem next_reply_le :
    position ≤ (node.reply heard draws measure position).next ∧
      (node.reply heard draws measure position).next
        ≤ (node.reckon draws measure position).next := by
  cases written : (node.reckon draws measure position).entries.all Entry.isWritten with
  | true =>
      rw [reply_of_written heard draws checked measure position written]
      exact ⟨(comes_ask draws checked measure position).forward, Nat.le_refl _⟩
  | false =>
      obtain ⟨_, atLeast, atMost, same⟩ :=
        reply_of_not_written heard draws checked measure position written
      rw [same]
      exact ⟨atLeast, atMost⟩

/-- An answer is the one that is reckoned, on the draws that are reckoned with. -/
theorem reply_eq_ok {value : Int}
    (answered : (node.reply heard draws measure position).result = .ok value) :
    value = (node.reckon draws measure position).value ∧
      node.reply heard draws measure position =
        ⟨.ok value, (node.reckon draws measure position).next,
          heardOf heard (node.reckon draws measure position).entries⟩ := by
  have result := result_reply_eq heard draws checked measure position
  rw [answered] at result
  split at result
  · next written =>
      obtain rfl := Except.ok.inj result
      exact ⟨rfl, reply_of_written heard draws checked measure position written⟩
  · cases result

end

/-! ### Bounds that are reported -/

section

variable {node : Node α} (checked : ∀ sub ∈ node.subtrees, sub.Checked) (side : Extreme)

include checked

/-- A bound is reported if the lines of all steps to it can be written. -/
theorem reported_eq :
    node.reported side =
      if node.isReported side then .ok (node.extreme side) else .error .numberTooLong := by
  have result := result_reply_eq (fun _ => false) (fun _ => 0) checked side.measure 0
  rw [(reply_measure (fun _ => false) (fun _ => 0) node side 0).1] at result
  cases side <;> exact result

theorem reported_eq_ok {bound : Int} :
    node.reported side = .ok bound ↔ node.isReported side = true ∧ bound = node.extreme side := by
  rw [reported_eq checked]
  split
  · next reported => simp [reported, eq_comm]
  · next unreported => simp [unreported]

/-- A bound that is reported is the one that is reckoned. -/
theorem eq_of_reported {bound : Int} (reported : node.reported side = .ok bound) :
    bound = node.extreme side :=
  ((reported_eq_ok checked side).mp reported).2

end

theorem isReported_boundEach (side : Extreme) (items : List (Node α)) :
    (boundEach items side).entries.all Entry.isWritten = items.all (isReported side) := by
  rw [boundEach_entries, List.all_flatMap]
  rfl

theorem isReported_die (side : Extreme) (slot : α) (d : Die) :
    (die slot d).isReported side = Numeral.isWritable (d.extreme side) := by
  simp [isReported, bound, Entry.isWritten, Line.isWritable]

theorem isReported_pool (side : Extreme) (slot : α) (items : List (Node α)) :
    (pool slot items).isReported side
      = (items.all (isReported side) && (items.map (extreme side)).all Numeral.isWritable) := by
  simp [isReported, bound, Entry.isWritten, Line.isWritable, ← isReported_boundEach]

theorem isReported_arithmetic (side : Extreme) (slot : α) (operation : Operation) (value : Nat)
    (inner : Node α) :
    (arithmetic slot operation value inner).isReported side
      = if operation.isMonotone value then
          inner.isReported side && Numeral.isWritable (inner.extreme side) &&
            Numeral.isWritable value
        else
          inner.isReported .lowest && inner.isReported .highest &&
            Numeral.isWritable (evenBase side inner.minimum inner.maximum) &&
              Numeral.isWritable value := by
  rw [isReported, bound]
  split <;>
    simp [isReported, Entry.isWritten, Line.isWritable, extreme_lowest, extreme_highest,
      Bool.and_assoc]

theorem isReported_selection (side : Extreme) (slot : α) (s : Selection) (threshold : Nat)
    (poolSlot : α) (items : List (Node α)) :
    (selection slot s threshold poolSlot items).isReported side
      = (items.all (isReported side) &&
          (s.select threshold (items.map (extreme side))).all Numeral.isWritable) := by
  simp [isReported, bound, Entry.isWritten, Line.isWritable, ← isReported_boundEach]

theorem isReported_explosion (slot : α) (rule : Explosion) (inner : Node α) :
    (explosion slot rule inner).isReported .lowest
        = (inner.isReported .lowest && Numeral.isWritable inner.minimum) ∧
      (explosion slot rule inner).isReported .highest = true := by
  constructor <;> simp [isReported, bound, Entry.isWritten, Line.isWritable, extreme_lowest]

end Node

/-! ### Numbers that are too long -/

/-- The power has 7781 digits. -/
theorem Operation.power_six_not_isWritable : Numeral.isWritable (power.apply 6 9999) = false := by
  have long : ∀ limit exponent, 2 * limit ≤ exponent → 10 ^ limit ≤ 6 ^ exponent := by
    intro limit exponent twice
    calc 10 ^ limit
      _ ≤ (6 ^ 2) ^ limit := Nat.pow_le_pow_left (by decide) limit
      _ = 6 ^ (2 * limit) := (Nat.pow_mul 6 2 limit).symm
      _ ≤ 6 ^ exponent := Nat.pow_le_pow_right (by decide) twice
  have raised : ∀ exponent, (power.apply 6 exponent).natAbs = 6 ^ exponent := by
    intro exponent
    rw [apply, raise]
    exact Int.natAbs_pow 6 exponent
  rw [Numeral.isWritable_eq_false_iff, raised]
  exact long _ _ (by decide)

end DicePool
