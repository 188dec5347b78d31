/-
Module: DicePool.Proofs.Rerolling
Purpose: What an explosion rolls: for each item a run of values, and when a run may be longer.
Main exports: Explosion.IsRun, RollsInRow, Explosion.ExplodesEach, Node.roll_follows_rule
-/
import DicePool.Proofs.Looping

/-!
The values of one item of an explosion are a run: all but the last make the explosion go on, and
the last does not, unless it was cut off (`Explosion.IsRun`).  `Explosion.ExplodesEach` says that
items are exploded in order, each with a run of rolls that begins where the one before it has
ended.  What a roll that comes to a value has added up are such runs, and on the same draws there
are no others: `Node.roll_follows_rule`.

A run that was not cut off is a run under every greater limit, so that a greater limit changes
nothing.
-/

namespace DicePool

/-- The values of one item of an explosion, in the order in which they are rolled: all but the
last explode, and the last does not, unless no more are allowed. -/
def Explosion.IsRun (rule : Explosion) (values : List Int) : Prop :=
  ∃ earlier last, values = earlier ++ [last] ∧
    (∀ value ∈ earlier, rule.matches? value = true) ∧ earlier.length ≤ rule.limit ∧
    (rule.matches? last = true → earlier.length = rule.limit)

/-- A run that was not cut off is a run under every greater limit. -/
theorem Explosion.IsRun.raise {rule : Explosion} {values : List Int} (run : rule.IsRun values)
    (stops : ∀ last ∈ values.getLast?, rule.matches? last = false) {limit : Nat}
    (greater : rule.limit ≤ limit) : IsRun { rule with limit := limit } values := by
  obtain ⟨earlier, last, rfl, explode, within, -⟩ := run
  have lastStops : rule.matches? last = false := stops last (by simp)
  refine ⟨earlier, last, rfl, explode, within.trans greater, fun goesOn => ?_⟩
  exact absurd (lastStops.symm.trans goesOn) Bool.false_ne_true

variable {α : Type}

/-- From the first position to the second these values are rolled, one after the other. -/
inductive RollsInRow (roll : Nat → Outcome α Int) : Nat → List Int → Nat → Prop where
  | nil (position : Nat) : RollsInRow roll position [] position
  | cons {position next : Nat} {value : Int} {values : List Int}
      (first : (roll position).result = .ok value)
      (others : RollsInRow roll (roll position).next values next) :
      RollsInRow roll position (value :: values) next

/-- From the first position to the second the items are exploded, each completely before the
next: it is rolled in a row, on the draws that those before it have left, and its values are a
run. -/
inductive Explosion.ExplodesEach (rule : Explosion) :
    List (Nat → Outcome α Int) → Nat → List (List Int) → Nat → Prop where
  | nil (position : Nat) : ExplodesEach rule [] position [] position
  | cons {roll : Nat → Outcome α Int} {rolls : List (Nat → Outcome α Int)}
      {position middle next : Nat} {values : List Int} {runs : List (List Int)}
      (run : rule.IsRun values) (rolled : RollsInRow roll position values middle)
      (others : ExplodesEach rule rolls middle runs next) :
      ExplodesEach rule (roll :: rolls) position (values :: runs) next

namespace Node

/-! ### Runs of one item -/

/-- The evaluation comes to what is rolled. -/
def ComesAsRolled (evaluation : Evaluation Unit Int) (roll : Nat → Outcome α Int) : Prop :=
  ∀ position result next, ComesTo evaluation position result next ↔
    result = (roll position).result ∧ next = (roll position).next

section

variable {evaluation : Evaluation Unit Int} {roll : Nat → Outcome α Int} {again : Int → Bool}
  {position next : Nat}

theorem ComesAsRolled.comesTo (same : ComesAsRolled evaluation roll) {value : Int}
    (rolled : (roll position).result = .ok value) :
    ComesTo evaluation position (.ok value) (roll position).next :=
  (same _ _ _).mpr ⟨rolled.symm, rfl⟩

theorem comesTo_repeated_of_stops (same : ComesAsRolled evaluation roll) {value : Int}
    (rolled : (roll position).result = .ok value) (stops : again value = false) (limit : Nat) :
    ComesTo (.repeated again evaluation limit) position (.ok [value]) (roll position).next := by
  cases limit with
  | zero => exact (same.comesTo rolled).map fun only => [only]
  | succ limit =>
      refine (same.comesTo rolled).bind ?_
      rw [if_neg (by simp [stops])]
      exact .pure [value] _

theorem comesTo_repeated_of_goesOn (same : ComesAsRolled evaluation roll) {value : Int}
    (rolled : (roll position).result = .ok value) (goesOn : again value = true) {limit : Nat}
    {others : Except Fault (List Int)}
    (later : ComesTo (.repeated again evaluation limit) (roll position).next others next) :
    ComesTo (.repeated again evaluation (limit + 1)) position (others.map (value :: ·)) next := by
  refine (same.comesTo rolled).bind ?_
  rw [if_pos goesOn]
  exact later.map (value :: ·)

/-- Rolls in a row that make a run are all rolls of the item: it goes on as long as they do, and
no further. -/
theorem comesTo_repeated_of_run (same : ComesAsRolled evaluation roll) {limit : Nat}
    {earlier : List Int} {last : Int} (explode : ∀ value ∈ earlier, again value = true)
    (within : earlier.length ≤ limit) (cut : again last = true → earlier.length = limit)
    (rolled : RollsInRow roll position (earlier ++ [last]) next) :
    ComesTo (.repeated again evaluation limit) position (.ok (earlier ++ [last])) next := by
  induction earlier generalizing limit position with
  | nil =>
      obtain _ | ⟨first, ⟨⟩⟩ := rolled
      cases stops : again last with
      | false => exact comesTo_repeated_of_stops same first stops limit
      | true =>
          obtain rfl := cut stops
          exact (same.comesTo first).map fun only => [only]
  | cons value earlier ih =>
      obtain _ | ⟨first, others⟩ := rolled
      obtain ⟨goesOn, explode⟩ := List.forall_mem_cons.mp explode
      cases limit with
      | zero => simp at within
      | succ limit =>
          have room : earlier.length ≤ limit := by simpa using within
          have later := ih explode room (fun goesOn => by simpa using cut goesOn) others
          exact comesTo_repeated_of_goesOn same first goesOn later

/-- The repetitions of a roll come to a run of rolls in a row. -/
theorem exists_run_of_comesTo_repeated (same : ComesAsRolled evaluation roll) {limit : Nat}
    {values : List Int}
    (comes : ComesTo (.repeated again evaluation limit) position (.ok values) next) :
    ∃ earlier last, values = earlier ++ [last] ∧ RollsInRow roll position values next ∧
      (∀ value ∈ earlier, again value = true) ∧ earlier.length ≤ limit ∧
      (again last = true → earlier.length = limit) := by
  induction limit generalizing position values with
  | zero =>
      obtain ⟨result, middle, first⟩ := exists_comesTo evaluation position
      obtain ⟨same', rfl⟩ := (first.map fun only => [only]).unique.mp comes
      obtain ⟨rfl, rfl⟩ := (same _ _ _).mp first
      obtain ⟨value, rolled, rfl⟩ := except_map_eq_ok.mp same'.symm
      exact ⟨[], value, rfl, .cons rolled (.nil _), by simp, Nat.le_refl 0, fun _ => rfl⟩
  | succ limit ih =>
      obtain ⟨result, middle, first⟩ := exists_comesTo evaluation position
      cases result with
      | error fault =>
          obtain ⟨failed, -⟩ := first.bind_error.unique.mp comes
          cases failed
      | ok value =>
          obtain ⟨rolled, rfl⟩ := (same _ _ _).mp first
          cases goesOn : again value with
          | false =>
              obtain ⟨found, rfl⟩ :=
                (comesTo_repeated_of_stops same rolled.symm goesOn (limit + 1)).unique.mp comes
              obtain rfl := Except.ok.inj found
              exact ⟨[], value, rfl, .cons rolled.symm (.nil _), by simp, Nat.zero_le _,
                fun matched => absurd (goesOn.symm.trans matched) Bool.false_ne_true⟩
          | true =>
              obtain ⟨others, last, later⟩ := exists_comesTo
                (.repeated again evaluation limit) (roll position).next
              obtain ⟨found, rfl⟩ :=
                (comesTo_repeated_of_goesOn same rolled.symm goesOn later).unique.mp comes
              obtain ⟨others, rfl, rfl⟩ := except_map_eq_ok.mp found.symm
              obtain ⟨earlier, last, rfl, row, explode, within, cut⟩ := ih later
              exact ⟨value :: earlier, last, rfl, .cons rolled.symm row,
                List.forall_mem_cons.mpr ⟨goesOn, explode⟩, Nat.succ_le_succ within,
                fun matched => congrArg (· + 1) (cut matched)⟩

/-- A run is what the repetitions of a roll come to. -/
theorem comesTo_of_isRun (same : ComesAsRolled evaluation roll) {rule : Explosion}
    {values : List Int} (run : rule.IsRun values) (rolled : RollsInRow roll position values next) :
    ComesTo (.repeated rule.matches? evaluation rule.limit) position (.ok values) next := by
  obtain ⟨earlier, last, rfl, explode, within, cut⟩ := run
  exact comesTo_repeated_of_run same explode within cut rolled

end

/-! ### Items one after the other -/

section

variable {rule : Explosion} {evaluations : List (Evaluation Unit Int)}
  {rolls : List (Nat → Outcome α Int)} {position next : Nat} {runs : List (List Int)}

/-- What an explosion comes to follows the rule. -/
theorem explodesEach_of_comesTo (same : List.Forall₂ ComesAsRolled evaluations rolls)
    {values : List Int} (comes : ComesTo (.exploded rule evaluations) position (.ok values) next) :
    ∃ runs, rule.ExplodesEach rolls position runs next ∧ values = runs.flatten := by
  induction same generalizing position values with
  | nil =>
      obtain ⟨found, rfl⟩ := (ComesTo.pure [] position).unique.mp comes
      exact ⟨[], .nil _, Except.ok.inj found⟩
  | @cons evaluation roll _ _ once _ ih =>
      obtain ⟨result, middle, first⟩ := exists_comesTo
        (.repeated rule.matches? evaluation rule.limit) position
      cases result with
      | error fault =>
          obtain ⟨failed, -⟩ := first.bind_error.unique.mp comes
          cases failed
      | ok run =>
          obtain ⟨others, last, later⟩ := exists_comesTo (.exploded rule _) middle
          obtain ⟨found, rfl⟩ := (first.bind (later.map (run ++ ·))).unique.mp comes
          obtain ⟨others, rfl, rfl⟩ := except_map_eq_ok.mp found.symm
          obtain ⟨earlier, last, rfl, row, explode, within, cut⟩ :=
            exists_run_of_comesTo_repeated once first
          obtain ⟨runs, explodes, rfl⟩ := ih later
          exact ⟨_ :: runs, .cons ⟨earlier, last, rfl, explode, within, cut⟩ row explodes,
            List.flatten_cons.symm⟩

/-- What follows the rule is what an explosion comes to. -/
theorem comesTo_of_explodesEach (same : List.Forall₂ ComesAsRolled evaluations rolls)
    (explodes : rule.ExplodesEach rolls position runs next) :
    ComesTo (.exploded rule evaluations) position (.ok runs.flatten) next := by
  induction same generalizing position runs with
  | nil =>
      cases explodes
      exact .pure [] _
  | cons once _ ih =>
      cases explodes with
      | cons run rolled others =>
          exact (comesTo_of_isRun once run rolled).bind ((ih others).map (_ ++ ·))

/-- The runs that follow the rule are determined by the draws. -/
theorem explodesEach_unique (same : List.Forall₂ ComesAsRolled evaluations rolls)
    {others : List (List Int)} {last : Nat}
    (explodes : rule.ExplodesEach rolls position runs next)
    (explodesToo : rule.ExplodesEach rolls position others last) : others = runs ∧ last = next := by
  induction same generalizing position runs others with
  | nil =>
      cases explodes
      cases explodesToo
      exact ⟨rfl, rfl⟩
  | cons once _ ih =>
      cases explodes with
      | cons run rolled later =>
          cases explodesToo with
          | cons run' rolled' later' =>
              obtain ⟨found, rfl⟩ := (comesTo_of_isRun once run rolled).unique.mp
                (comesTo_of_isRun once run' rolled')
              obtain rfl := Except.ok.inj found
              obtain ⟨rfl, rfl⟩ := ih later later'
              exact ⟨rfl, rfl⟩

/-- Where every item stops on a value that does not match, the rule with a greater limit is
followed as well. -/
theorem explodesEach_raise (explodes : rule.ExplodesEach rolls position runs next)
    (stops : ∀ run ∈ runs, ∀ last ∈ run.getLast?, rule.matches? last = false) {limit : Nat}
    (greater : rule.limit ≤ limit) :
    Explosion.ExplodesEach { rule with limit := limit } rolls position runs next := by
  induction explodes with
  | nil position => exact .nil position
  | cons run rolled _ ih =>
      obtain ⟨first, later⟩ := List.forall_mem_cons.mp stops
      exact .cons (run.raise first greater) rolled (ih later)

end

/-! ### Rolls of an explosion -/

theorem comesAsRolled (heard : α → Bool) (draws : Draws) (node : Node α) :
    ComesAsRolled (node.askRoll deaf draws) (node.reply heard draws .roll) :=
      fun position result next =>
  (finishes_iff draws node position result next).symm.trans
    (finishes_iff_reply heard draws node position result next)

/-- The values of an explosion are written down in one line and added up. -/
theorem comesTo_askRoll_explosion {draws : Draws} (slot : α) {rule : Explosion} {inner : Node α}
    {position next : Nat} {values : Except Fault (List Int)}
    (comes : ComesTo (.exploded rule (inner.leaves.map (askRoll deaf draws)))
      position values next) :
    ComesTo ((explosion slot rule inner).askRoll deaf draws) position
      (values >>= fun values => (Line.sum values).written (total values)) next := by
  rw [askRoll_explosion]
  exact comes.conclude fun values => .tell _ _ _ _ _

/-- A roll of an explosion that comes to a value adds up the runs of its items, one item after the
other, and no other runs follow the rule.  If every run ends with a value that does not match, the
roll has the same value with the same draws under every greater limit. -/
theorem roll_follows_rule (heard : α → Bool) (draws : Draws) (slot : α) (rule : Explosion)
    (inner : Node α) (position : Nat) {value : Int}
    (rolled : ((explosion slot rule inner).reply heard draws .roll position).result = .ok value) :
    let items := inner.leaves.map fun leaf => leaf.reply heard draws .roll
    let outcome := (explosion slot rule inner).reply heard draws .roll position
    ∃ runs, rule.ExplodesEach items position runs outcome.next ∧
      value = (runs.map List.sum).sum ∧
      (∀ others next, rule.ExplodesEach items position others next →
        others = runs ∧ next = outcome.next) ∧
      ((∀ run ∈ runs, ∀ last ∈ run.getLast?, rule.matches? last = false) →
        ∀ limit, rule.limit ≤ limit →
          let raised := (explosion slot { rule with limit := limit } inner).reply heard draws .roll
            position
          raised.result = .ok value ∧ raised.next = outcome.next) := by
  intro items outcome
  have same : List.Forall₂ ComesAsRolled (inner.leaves.map (askRoll deaf draws)) items := by
    simp only [items, List.forall₂_map_left_iff, List.forall₂_map_right_iff, List.forall₂_same]
    exact fun leaf _ => comesAsRolled heard draws leaf
  obtain ⟨values, next, comes⟩ := exists_comesTo
    (.exploded rule (inner.leaves.map (askRoll deaf draws))) position
  obtain ⟨result, ended⟩ :=
    (comesAsRolled heard draws _ _ _ _).mp (comesTo_askRoll_explosion slot comes)
  rw [rolled] at result
  obtain ⟨values, rfl, written⟩ := except_bind_eq_ok.mp result
  obtain ⟨runs, explodes, rfl⟩ := explodesEach_of_comesTo same comes
  have sums : value = runs.flatten.sum := by
    unfold Line.written at written
    split at written
    · exact (Except.ok.inj written).symm
    · cases written
  rw [ended] at explodes
  refine ⟨runs, explodes, by rw [sums, List.sum_flatten], fun others last explodesToo =>
    explodesEach_unique same explodes explodesToo, fun stops limit greater => ?_⟩
  have raised := comesTo_of_explodesEach same (explodesEach_raise explodes stops greater)
  obtain ⟨result', next'⟩ :=
    (comesAsRolled heard draws _ _ _ _).mp (comesTo_askRoll_explosion slot raised)
  exact ⟨result'.symm.trans written, next'.symm⟩

/-- The die explodes twice and then stops on a one, just when two further rolls are the limit;
the fudge die stops at once.  So the limit could as well be nine. -/
theorem roll_follows_rule_at_limit :
    let pool : Node Unit := .pool () [.die () (.sided 6), .die () .fudge]
    let rule : Explosion := ⟨.greater, 4, 2⟩
    let draws : Draws := .cycle #[5, 4, 0, 0]
    let items := pool.leaves.map fun leaf => leaf.reply everySlot draws .roll
    ((explosion () rule pool).reply everySlot draws .roll 0).result = .ok 11 ∧
      rule.ExplodesEach items 0 [[6, 5, 1], [-1]] 4 ∧
      (∀ run ∈ [[6, 5, 1], [-1]], ∀ last ∈ run.getLast?, rule.matches? last = false) ∧
      rule.limit ≤ 9 ∧
      ((explosion () ⟨.greater, 4, 9⟩ pool).reply everySlot draws .roll 0).result = .ok 11 ∧
      ((explosion () ⟨.greater, 4, 9⟩ pool).reply everySlot draws .roll 0).next
        = ((explosion () rule pool).reply everySlot draws .roll 0).next := by
  intro pool rule draws items
  have rolled :
      ((explosion () rule pool).reply everySlot draws .roll 0).result = .ok 11 := by decide
  have dieRun : rule.IsRun [6, 5, 1] := ⟨[6, 5], 1, rfl, by decide, by decide, by decide⟩
  have fudgeRun : rule.IsRun [-1] := ⟨[], -1, rfl, by decide, by decide, by decide⟩
  have dieRolls : RollsInRow ((die () (.sided 6)).reply everySlot (.cycle #[5, 4, 0, 0]) .roll) 0
      [6, 5, 1] 3 := .cons (by decide) (.cons (by decide) (.cons (by decide) (.nil 3)))
  have fudgeRolls : RollsInRow ((die () .fudge).reply everySlot (.cycle #[5, 4, 0, 0]) .roll) 3
      [-1] 4 := .cons (by decide) (.nil 4)
  have explodes : rule.ExplodesEach items 0 [[6, 5, 1], [-1]] 4 :=
    .cons dieRun dieRolls (.cons fudgeRun fudgeRolls (.nil 4))
  have stops : ∀ run ∈ [[6, 5, 1], [-1]], ∀ last ∈ run.getLast?, rule.matches? last = false := by
    decide
  obtain ⟨runs, -, -, unique, raised⟩ := roll_follows_rule everySlot draws () rule pool 0 rolled
  obtain ⟨rfl, -⟩ := unique _ _ explodes
  exact ⟨rolled, explodes, stops, by decide, raised stops 9 (by decide)⟩

end Node

end DicePool
