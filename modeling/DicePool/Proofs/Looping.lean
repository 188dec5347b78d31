/-
Module: DicePool.Proofs.Looping
Purpose: Rolling as a loop that nothing counts down, and why it always finishes.
Main exports: Node.Finishes, Node.Loops, Node.finishes_iff, Node.finishes_iff_reply
-/
import DicePool.Proofs.Checking
import DicePool.Proofs.Listening

/-!
An explosion is a loop: it rolls an item, and goes round again as long as the last value
matches and there is room for one more.  `Evaluation.repeated` counts the rounds that are left,
and so it could not go on for ever whatever the condition of the loop said.

The relations of this module have the condition and no such count: a loop that never stops
finishes with nothing.  To finish is to come to a value or to a fault: a roll also ends where a
line of it is too long to be written.  `Node.finishes_iff_reply` says that rolling finishes all
the same, on every stream, with the outcome of the running roll and no other.
-/

namespace DicePool

/-- The result of a step whose line has to be written first. -/
def Line.written (line : Line) (result : Int) : Except Fault Int :=
  if line.isWritable then .ok result else .error .numberTooLong

namespace Node

variable {α : Type}

mutual

/-- Rolling the node from the first position on finishes with this result, at the second
position. -/
inductive Finishes (draws : Draws) : Node α → Nat → Except Fault Int → Nat → Prop where
  | die (slot : α) (d : Die) (position : Nat) :
      Finishes draws (.die slot d) position
        (d.shown (draws position) >>= fun value => (Line.sum [value]).written value) (position + 1)
  | pool (slot : α) {items : List (Node α)} {position next : Nat}
      {values : Except Fault (List Int)} (each : EachFinishes draws items position values next) :
      Finishes draws (.pool slot items) position
        (values >>= fun values => (Line.sum values).written (total values)) next
  | arithmetic (slot : α) (operation : Operation) (value : Nat) {inner : Node α}
      {position next : Nat} {base : Except Fault Int}
      (inside : Finishes draws inner position base next) :
      Finishes draws (.arithmetic slot operation value inner) position
        (base >>= fun lhs => operation.calculate lhs value >>= fun result =>
          (Line.calculation lhs operation value).written result) next
  | selection (slot : α) (s : Selection) (threshold : Nat) (poolSlot : α)
      {items : List (Node α)} {position next : Nat} {values : Except Fault (List Int)}
      (each : EachFinishes draws items position values next) :
      Finishes draws (.selection slot s threshold poolSlot items) position
        (values >>= fun values =>
          (Line.sum (s.select threshold values)).written (total (s.select threshold values))) next
  | explosion (slot : α) {rule : Explosion} {inner : Node α} {position next : Nat}
      {values : Except Fault (List Int)}
      (each : EachLoops draws rule inner.leaves position values next) :
      Finishes draws (.explosion slot rule inner) position
        (values >>= fun values => (Line.sum values).written (total values)) next

/-- The nodes are rolled one after the other, up to the first that comes to a fault. -/
inductive EachFinishes (draws : Draws) :
    List (Node α) → Nat → Except Fault (List Int) → Nat → Prop where
  | nil (position : Nat) : EachFinishes draws [] position (.ok []) position
  | cons {node : Node α} {rest : List (Node α)} {position middle next : Nat} {value : Int}
      {values : Except Fault (List Int)} (first : Finishes draws node position (.ok value) middle)
      (others : EachFinishes draws rest middle values next) :
      EachFinishes draws (node :: rest) position (values.map (value :: ·)) next
  | ends {node : Node α} {rest : List (Node α)} {position next : Nat} {fault : Fault}
      (first : Finishes draws node position (.error fault) next) :
      EachFinishes draws (node :: rest) position (.error fault) next

/-- The loop of an explosion finishes with the last list of values, where the first list is
there already and the leaf is about to be rolled. -/
inductive Loops (draws : Draws) :
    Explosion → Node α → List Int → Nat → Except Fault (List Int) → Nat → Prop where
  | stop {rule : Explosion} {leaf : Node α} {earlier : List Int} {position next : Nat}
      {value : Int} (last : Finishes draws leaf position (.ok value) next)
      (stops : ¬(rule.matches? value = true ∧ (earlier ++ [value]).length ≤ rule.limit)) :
      Loops draws rule leaf earlier position (.ok (earlier ++ [value])) next
  | again {rule : Explosion} {leaf : Node α} {earlier : List Int}
      {values : Except Fault (List Int)} {position middle next : Nat} {value : Int}
      (first : Finishes draws leaf position (.ok value) middle)
      (goesOn : rule.matches? value = true ∧ (earlier ++ [value]).length ≤ rule.limit)
      (others : Loops draws rule leaf (earlier ++ [value]) middle values next) :
      Loops draws rule leaf earlier position values next
  | ends {rule : Explosion} {leaf : Node α} {earlier : List Int} {position next : Nat}
      {fault : Fault} (last : Finishes draws leaf position (.error fault) next) :
      Loops draws rule leaf earlier position (.error fault) next

/-- The loops of several leaves are run one after the other, up to the first fault. -/
inductive EachLoops (draws : Draws) :
    Explosion → List (Node α) → Nat → Except Fault (List Int) → Nat → Prop where
  | nil (rule : Explosion) (position : Nat) : EachLoops draws rule [] position (.ok []) position
  | cons {rule : Explosion} {leaf : Node α} {rest : List (Node α)} {position middle next : Nat}
      {values : List Int} {others : Except Fault (List Int)}
      (first : Loops draws rule leaf [] position (.ok values) middle)
      (later : EachLoops draws rule rest middle others next) :
      EachLoops draws rule (leaf :: rest) position (others.map (values ++ ·)) next
  | ends {rule : Explosion} {leaf : Node α} {rest : List (Node α)} {position next : Nat}
      {fault : Fault} (first : Loops draws rule leaf [] position (.error fault) next) :
      EachLoops draws rule (leaf :: rest) position (.error fault) next

end

/-! ### Evaluations that nobody listens to -/

/-- A listener that makes nothing of any step. -/
abbrev deaf : Listener Unit α :=
  fun _ _ => .ok ()

section

variable {β γ : Type} {evaluation : Evaluation Unit β} {later : β → Evaluation Unit γ}
  {position middle next : Nat}

/-- From the position on the evaluation comes to the result, at the next position. -/
def ComesTo (evaluation : Evaluation Unit β) (position : Nat) (result : Except Fault β)
    (next : Nat) : Prop :=
  evaluation.run ⟨position, ()⟩ = (result, ⟨next, ()⟩)

theorem ComesTo.unique {result other : Except Fault β} {last : Nat}
    (comes : ComesTo evaluation position result next) :
    ComesTo evaluation position other last ↔ other = result ∧ last = next := by
  rw [ComesTo, comes, Prod.mk.injEq, Standing.mk.injEq, eq_comm, eq_comm (a := next)]
  simp

/-- Every evaluation comes to something. -/
theorem exists_comesTo (evaluation : Evaluation Unit β) (position : Nat) :
    ∃ result next, ComesTo evaluation position result next :=
  ⟨_, _, rfl⟩

theorem ComesTo.pure (value : β) (position : Nat) :
    ComesTo (Pure.pure value : Evaluation Unit β) position (.ok value) position := rfl

theorem ComesTo.bind {value : β} {result : Except Fault γ}
    (first : ComesTo evaluation position (.ok value) middle)
    (second : ComesTo (later value) middle result next) :
    ComesTo (evaluation >>= later) position result next :=
  (Evaluation.run_bind_of_ok first).trans second

theorem ComesTo.bind_error {fault : Fault}
    (first : ComesTo evaluation position (.error fault) next) :
    ComesTo (evaluation >>= later) position (.error fault) next :=
  Evaluation.run_bind_of_error first

/-- What is made of a result without a further draw. -/
theorem ComesTo.conclude {result : Except Fault β} {f : β → Except Fault γ}
    (comes : ComesTo evaluation position result next)
    (concludes : ∀ value, ComesTo (later value) next (f value) next) :
    ComesTo (evaluation >>= later) position (result >>= f) next := by
  cases result with
  | error fault => exact comes.bind_error
  | ok value => exact comes.bind (concludes value)

theorem ComesTo.map {result : Except Fault β} (f : β → γ)
    (comes : ComesTo evaluation position result next) :
    ComesTo (evaluation >>= fun value => Pure.pure (f value)) position (result.map f) next := by
  cases result with
  | error fault => exact comes.bind_error
  | ok value => exact comes.bind (.pure (f value) next)

theorem ComesTo.answer (result : Except Fault β) (position : Nat) :
    ComesTo (Evaluation.answer result) position result position := rfl

theorem ComesTo.tell (node : Node α) (measure : Measure) (line : Line) (result : Int)
    (position : Nat) :
    ComesTo (Evaluation.tell deaf node measure line result) position (line.written result)
      position := by
  unfold ComesTo Line.written
  split
  · next writable => exact Evaluation.run_tell writable _
  · next tooLong => exact Evaluation.run_tell_of_not (by simpa using tooLong) _

end

/-! ### Loops have the outcome that is computed -/

section

variable {draws : Draws}

/-- Rolling the node finishes as the evaluation does, and in no other way. -/
def FinishesAsRolled (draws : Draws) (node : Node α) : Prop :=
  ∀ position result next, node.Finishes draws position result next ↔
    ComesTo (node.askRoll deaf draws) position result next

theorem eachFinishes_iff {items : List (Node α)}
    (each : ∀ item ∈ items, item.FinishesAsRolled draws) (position : Nat)
    (values : Except Fault (List Int)) (next : Nat) :
    EachFinishes draws items position values next ↔
      ComesTo (Evaluation.each (items.map (askRoll deaf draws))) position values next := by
  induction items generalizing position values next with
  | nil =>
      rw [List.map_nil, Evaluation.each, (ComesTo.pure [] position).unique]
      constructor
      · rintro ⟨⟩
        exact ⟨rfl, rfl⟩
      · rintro ⟨rfl, rfl⟩
        exact .nil _
  | cons item items ih =>
      have once := each item (by simp)
      have rest := ih fun item mem => each item (by simp [mem])
      constructor
      · intro finished
        cases finished with
        | cons first others =>
            exact .bind ((once _ _ _).mp first) (.map (_ :: ·) ((rest _ _ _).mp others))
        | ends first => exact .bind_error ((once _ _ _).mp first)
      · intro comes
        obtain ⟨result, middle, first⟩ := exists_comesTo (item.askRoll deaf draws) position
        cases result with
        | error fault =>
            obtain ⟨rfl, rfl⟩ := first.bind_error.unique.mp comes
            exact .ends ((once _ _ _).mpr first)
        | ok value =>
            obtain ⟨others, last, later⟩ :=
              exists_comesTo (Evaluation.each (items.map (askRoll deaf draws))) middle
            obtain ⟨rfl, rfl⟩ := (first.bind (later.map (value :: ·))).unique.mp comes
            exact .cons ((once _ _ _).mpr first) ((rest _ _ _).mpr later)

/-- What is left of the loop are the rolls for which there is still room. -/
theorem loops_iff {rule : Explosion} {leaf : Node α} (once : leaf.FinishesAsRolled draws)
    (room : Nat) {earlier : List Int} (within : earlier.length + room = rule.limit)
    (position : Nat) (values : Except Fault (List Int)) (next : Nat) :
    Loops draws rule leaf earlier position values next ↔
      ∃ rolled, ComesTo (.repeated rule.matches? (leaf.askRoll deaf draws) room) position rolled
        next ∧ values = rolled.map (earlier ++ ·) := by
  induction room generalizing earlier position values next with
  | zero =>
      have full : ∀ value : Int, ¬(earlier ++ [value]).length ≤ rule.limit := by
        intro value
        simp only [List.length_append, List.length_singleton]
        omega
      constructor
      · intro finished
        cases finished with
        | stop last _ => exact ⟨_, ((once _ _ _).mp last).map fun only => [only], rfl⟩
        | again _ goesOn _ => exact absurd goesOn.2 (full _)
        | ends last => exact ⟨_, ((once _ _ _).mp last).bind_error, rfl⟩
      · rintro ⟨rolled, comes, rfl⟩
        obtain ⟨result, last, only⟩ := exists_comesTo (leaf.askRoll deaf draws) position
        obtain ⟨rfl, rfl⟩ := (only.map fun only => [only]).unique.mp comes
        cases result with
        | error fault => exact .ends ((once _ _ _).mpr only)
        | ok value => exact .stop ((once _ _ _).mpr only) fun goesOn => full _ goesOn.2
  | succ room ih =>
      have fits : ∀ value : Int, (earlier ++ [value]).length ≤ rule.limit := by
        intro value
        simp only [List.length_append, List.length_singleton]
        omega
      have oneMore : ∀ value : Int, (earlier ++ [value]).length + room = rule.limit := by
        intro value
        simp only [List.length_append, List.length_singleton]
        omega
      -- A round comes to what the next rounds come to, if the loop goes on, and else to itself.
      have goingOn {value : Int} {middle last : Nat} {others : Except Fault (List Int)}
          (first : ComesTo (leaf.askRoll deaf draws) position (.ok value) middle)
          (matched : rule.matches? value = true)
          (later : ComesTo (.repeated rule.matches? (leaf.askRoll deaf draws) room) middle others
            last) :
          ComesTo (.repeated rule.matches? (leaf.askRoll deaf draws) (room + 1)) position
            (others.map (value :: ·)) last := by
        refine first.bind ?_
        rw [if_pos matched]
        exact later.map (value :: ·)
      have stopping {value : Int} {last : Nat}
          (first : ComesTo (leaf.askRoll deaf draws) position (.ok value) last)
          (unmatched : ¬rule.matches? value = true) :
          ComesTo (.repeated rule.matches? (leaf.askRoll deaf draws) (room + 1)) position
            (.ok [value]) last := by
        refine first.bind ?_
        rw [if_neg unmatched]
        exact .pure [value] last
      have joined : ∀ (value : Int) (others : Except Fault (List Int)),
          others.map ((earlier ++ [value]) ++ ·)
            = (others.map (value :: ·)).map (earlier ++ ·) := by
        rintro value (fault | others) <;> simp [Except.map]
      constructor
      · intro finished
        cases finished with
        | stop last stops =>
            have unmatched := fun matched => stops ⟨matched, fits _⟩
            exact ⟨_, stopping ((once _ _ _).mp last) unmatched, rfl⟩
        | again first goesOn others =>
            obtain ⟨rolled, later, rfl⟩ := (ih (oneMore _) _ _ _).mp others
            exact ⟨_, goingOn ((once _ _ _).mp first) goesOn.1 later, joined _ _⟩
        | ends last => exact ⟨_, ((once _ _ _).mp last).bind_error, rfl⟩
      · rintro ⟨rolled, comes, rfl⟩
        obtain ⟨result, middle, first⟩ := exists_comesTo (leaf.askRoll deaf draws) position
        cases result with
        | error fault =>
            obtain ⟨rfl, rfl⟩ := first.bind_error.unique.mp comes
            exact .ends ((once _ _ _).mpr first)
        | ok value =>
            by_cases matched : rule.matches? value = true
            · obtain ⟨others, last, later⟩ := exists_comesTo
                (.repeated rule.matches? (leaf.askRoll deaf draws) room) middle
              obtain ⟨rfl, rfl⟩ := (goingOn first matched later).unique.mp comes
              exact .again ((once _ _ _).mpr first) ⟨matched, fits _⟩
                ((ih (oneMore _) _ _ _).mpr ⟨others, later, (joined _ _).symm⟩)
            · obtain ⟨rfl, rfl⟩ := (stopping first matched).unique.mp comes
              exact .stop ((once _ _ _).mpr first) fun goesOn => matched goesOn.1

theorem loops_iff_repeated (rule : Explosion) {leaf : Node α}
    (once : leaf.FinishesAsRolled draws) (position : Nat) (values : Except Fault (List Int))
    (next : Nat) :
    Loops draws rule leaf [] position values next ↔
      ComesTo (.repeated rule.matches? (leaf.askRoll deaf draws) rule.limit) position values
        next := by
  have nothingBefore : ∀ rolled : Except Fault (List Int), rolled.map ([] ++ ·) = rolled := by
    rintro (fault | rolled) <;> rfl
  rw [loops_iff once rule.limit (Nat.zero_add _)]
  simp only [nothingBefore, exists_eq_right']

theorem eachLoops_iff (rule : Explosion) {leaves : List (Node α)}
    (each : ∀ leaf ∈ leaves, leaf.FinishesAsRolled draws) (position : Nat)
    (values : Except Fault (List Int)) (next : Nat) :
    EachLoops draws rule leaves position values next ↔
      ComesTo (.exploded rule (leaves.map (askRoll deaf draws))) position values next := by
  induction leaves generalizing position values next with
  | nil =>
      rw [List.map_nil, Evaluation.exploded, (ComesTo.pure [] position).unique]
      constructor
      · rintro ⟨⟩
        exact ⟨rfl, rfl⟩
      · rintro ⟨rfl, rfl⟩
        exact .nil rule _
  | cons leaf leaves ih =>
      have once := loops_iff_repeated rule (each leaf (by simp))
      have rest := ih fun leaf mem => each leaf (by simp [mem])
      constructor
      · intro finished
        cases finished with
        | cons first later =>
            exact .bind ((once _ _ _).mp first) (.map (_ ++ ·) ((rest _ _ _).mp later))
        | ends first => exact .bind_error ((once _ _ _).mp first)
      · intro comes
        obtain ⟨result, middle, first⟩ := exists_comesTo
          (.repeated rule.matches? (leaf.askRoll deaf draws) rule.limit) position
        cases result with
        | error fault =>
            obtain ⟨rfl, rfl⟩ := first.bind_error.unique.mp comes
            exact .ends ((once _ _ _).mpr first)
        | ok values =>
            obtain ⟨others, last, later⟩ := exists_comesTo
              (.exploded rule (leaves.map (askRoll deaf draws))) middle
            obtain ⟨rfl, rfl⟩ := (first.bind (later.map (values ++ ·))).unique.mp comes
            exact .cons ((once _ _ _).mpr first) ((rest _ _ _).mpr later)

end

/-- Rolling a node finishes on every stream, with the result and at the position of the
evaluation. -/
theorem finishes_iff (draws : Draws) (node : Node α) : node.FinishesAsRolled draws := by
  induction node using induction_inside with
  | step node ih =>
      intro position result next
      cases node with
      | die slot d =>
          have comes : ComesTo ((die slot d).askRoll deaf draws) position
              (d.shown (draws position) >>= fun value => (Line.sum [value]).written value)
              (position + 1) := by
            have drawn : ComesTo (Evaluation.draw draws) position (.ok (draws position))
                (position + 1) := rfl
            rw [askRoll_die]
            exact drawn.bind ((ComesTo.answer _ _).conclude fun value => .tell _ _ _ _ _)
          rw [comes.unique]
          constructor
          · rintro ⟨⟩
            exact ⟨rfl, rfl⟩
          · rintro ⟨rfl, rfl⟩
            exact .die slot d position
      | pool slot items =>
          have each := eachFinishes_iff fun item mem => ih item (item_mem_inside_pool slot mem)
          rw [askRoll_pool]
          constructor
          · rintro ⟨⟩
            next values rolled =>
              exact ((each _ _ _).mp rolled).conclude fun values => .tell _ _ _ _ _
          · intro comes
            obtain ⟨values, last, rolled⟩ :=
              exists_comesTo (Evaluation.each (items.map (askRoll deaf draws))) position
            obtain ⟨rfl, rfl⟩ := (rolled.conclude fun values =>
              .tell (pool slot items) .roll (.sum values) (total values) _).unique.mp comes
            exact .pool slot ((each _ _ _).mpr rolled)
      | arithmetic slot operation number inner =>
          have base := ih inner (by simp)
          have concluded : ∀ lhs position, ComesTo (do
                let result ← Evaluation.answer (operation.calculate lhs number)
                Evaluation.tell deaf (arithmetic slot operation number inner) .roll
                  (.calculation lhs operation number) result) position
              (operation.calculate lhs number >>= fun result =>
                (Line.calculation lhs operation number).written result) position :=
            fun lhs position => (ComesTo.answer _ _).conclude fun result => .tell _ _ _ _ _
          rw [askRoll_arithmetic]
          constructor
          · rintro ⟨⟩
            next lhs rolled => exact ((base _ _ _).mp rolled).conclude fun lhs => concluded lhs _
          · intro comes
            obtain ⟨lhs, last, rolled⟩ := exists_comesTo (inner.askRoll deaf draws) position
            obtain ⟨rfl, rfl⟩ := (rolled.conclude fun lhs => concluded lhs _).unique.mp comes
            exact .arithmetic slot operation number ((base _ _ _).mpr rolled)
      | selection slot s threshold poolSlot items =>
          have each := eachFinishes_iff fun item mem =>
            ih item (item_mem_inside_selection slot s threshold poolSlot mem)
          rw [askRoll_selection]
          constructor
          · rintro ⟨⟩
            next values rolled =>
              exact ((each _ _ _).mp rolled).conclude fun values => .tell _ _ _ _ _
          · intro comes
            obtain ⟨values, last, rolled⟩ :=
              exists_comesTo (Evaluation.each (items.map (askRoll deaf draws))) position
            obtain ⟨rfl, rfl⟩ := (rolled.conclude fun values =>
              .tell (selection slot s threshold poolSlot items) .roll
                (.sum (s.select threshold values)) (total (s.select threshold values)) _).unique.mp
                comes
            exact .selection slot s threshold poolSlot ((each _ _ _).mpr rolled)
      | explosion slot rule inner =>
          have each := eachLoops_iff rule fun leaf mem =>
            ih leaf (leaf_mem_inside_explosion slot rule mem)
          rw [askRoll_explosion]
          constructor
          · rintro ⟨⟩
            next values rolled =>
              exact ((each _ _ _).mp rolled).conclude fun values => .tell _ _ _ _ _
          · intro comes
            obtain ⟨values, last, rolled⟩ := exists_comesTo
              (.exploded rule (inner.leaves.map (askRoll deaf draws))) position
            obtain ⟨rfl, rfl⟩ := (rolled.conclude fun values =>
              .tell (explosion slot rule inner) .roll (.sum values)
                (total values) _).unique.mp comes
            exact .explosion slot ((each _ _ _).mpr rolled)

/-- Rolling finishes as it is answered, whoever listens. -/
theorem finishes_iff_reply (heard : α → Bool) (draws : Draws) (node : Node α) (position : Nat)
    (result : Except Fault Int) (next : Nat) :
    node.Finishes draws position result next ↔
      result = (node.reply heard draws .roll position).result ∧
        next = (node.reply heard draws .roll position).next := by
  have unheeded : ∀ sub : Node α,
      sub.HearAlike (fun _ _ => True) (.memory heard) deaf id := fun _ _ _ _ _ _ _ => trivial
  have same : Matches (fun _ _ => True) (node.ask (.memory heard) draws .roll)
      ((node.map id).ask deaf draws .roll) := ask_matches draws (fun sub _ => unheeded sub) .roll
  rw [map_id] at same
  obtain ⟨answered, last, known, _, -, ran, comes⟩ := same position #[] () trivial
  rw [finishes_iff, reply, Evaluation.remembered, ran]
  exact ComesTo.unique comes

end Node

end DicePool
