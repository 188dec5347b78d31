/-
Module: DicePool.Proofs.Explaining
Purpose: The steps of a question: those of the questions behind it, and one that adds up.
Main exports: Numeral.readSum?, Node.askEach, Node.Explains, Node.explained_reckon,
  Session.exists_explains_ask, Session.long_power_is_not_explained
-/
import DicePool.Proofs.Following
import DicePool.Proofs.Rerolling
import DicePool.Proofs.Spellings
import DicePool.Session

/-!
To answer a question a node asks others, one after the other, and then says in one line how it
comes by its result.  `Node.Explains` lists for each sort of node and each measure which
questions these are, and which line it makes of their answers.  What the line is worth as a text
is what a reader finds in it: `Numeral.readSum?`.

The steps of the answer are those of these questions, in their order, and the step of the node
itself (`Node.explained_reckon`).  In a session they are what the journal gains when a tree is
followed: `Session.exists_explains_ask`.  Where a line on the way is too long the question ends:
then the journal has gained what the questions until there have added, and the node itself says
nothing.
-/

namespace DicePool

/-! ### Reading a sum -/

namespace Text

/-- The addends of a sum: what stands between plus signs with blanks around them. -/
def addends : Text → List Text
  | [] => [[]]
  | ' ' :: '+' :: ' ' :: rest => [] :: addends rest
  | c :: rest =>
      match addends rest with
      | [] => [[c]]
      | addend :: others => (c :: addend) :: others

theorem addends_cons {c : Char} (noBlank : c ≠ ' ') (rest : Text) :
    addends (c :: rest) = match addends rest with
      | [] => [[c]]
      | addend :: others => (c :: addend) :: others := by
  rw [addends]
  rintro later rfl
  exact absurd rfl noBlank

/-- Up to the plus sign there is one addend. -/
theorem addends_append {s : Text} (apart : ' ' ∉ s) (rest : Text) :
    addends (s ++ [' ', '+', ' '] ++ rest) = s :: addends rest := by
  induction s with
  | nil => rfl
  | cons c s ih =>
      simp only [List.mem_cons, not_or] at apart
      rw [List.cons_append, List.cons_append, addends_cons (Ne.symm apart.1), ih apart.2]

theorem addends_of_not_mem {s : Text} (apart : ' ' ∉ s) : addends s = [s] := by
  induction s with
  | nil => rfl
  | cons c s ih =>
      simp only [List.mem_cons, not_or] at apart
      rw [addends_cons (Ne.symm apart.1), ih apart.2]

/-- Texts without blanks that are added up are the addends of the sum. -/
theorem addends_join {parts : List Text} (nonempty : parts ≠ []) (apart : ∀ s ∈ parts, ' ' ∉ s) :
    addends (join [' ', '+', ' '] parts) = parts := by
  induction parts with
  | nil => exact absurd rfl nonempty
  | cons s rest ih =>
      cases rest with
      | nil => exact addends_of_not_mem (apart s (by simp))
      | cons t rest =>
          have later := ih (by simp) fun s mem => apart s (by simp [mem])
          rw [join, addends_append (apart s (by simp)), later]

end Text

namespace Numeral

/-- Reads a sum of integers. An empty line is a sum of none. -/
def readSum? : Text → Option (List Int)
  | [] => some []
  | line => (Text.addends line).mapM readInt?

theorem blank_notMem_ofInt (i : Int) : ' ' ∉ ofInt i := by
  have made : Text.MadeOf ['-'] (ofInt i) := madeOf_ofInt (by simp) i
  exact made.notMem (by decide) (by simp)

theorem mapM_readInt?_ofInt {values : List Int} (writable : values.all isWritable = true) :
    (values.map ofInt).mapM readInt? = some values := by
  induction values with
  | nil => rfl
  | cons value rest ih =>
      rw [List.all_cons, Bool.and_eq_true] at writable
      simp [readInt?_ofInt writable.1, ih writable.2]

/-- A written sum is read as its addends. -/
theorem readSum?_text {values : List Int} (writable : (Line.sum values).isWritable = true) :
    readSum? (Line.sum values).text = some values := by
  cases values with
  | nil => rfl
  | cons value rest =>
      have apart : ∀ s ∈ (value :: rest).map ofInt, ' ' ∉ s := by
        simp only [List.forall_mem_map]
        exact fun i _ => blank_notMem_ofInt i
      have notEmpty : (Line.sum (value :: rest)).text ≠ [] := by
        cases rest with
        | nil => exact ofInt_ne_nil value
        | cons next rest => simp [Line.text, Text.join]
      rw [readSum?, Line.text, Text.addends_join (by simp) apart, mapM_readInt?_ofInt writable]
      exact notEmpty

end Numeral

/-! ### The questions behind an answer -/

namespace Node

variable {α : Type}

/-- Asks each node for its measure, on the draws that those before it have left. -/
def askEach (heard : α → Bool) (draws : Draws) (questions : List (Node α × Measure))
    (position : Nat) : Outcome α (List Int) :=
  (Evaluation.each (questions.map fun question =>
    question.1.ask (.memory heard) draws question.2)).remembered position

/-- How the answer of a node comes about: the questions that it asks, the values that they
are answered with, its line and its result. -/
inductive Explains : Node α → Measure → List (Node α × Measure) → List Int → Line → Int → Prop where
  | die (slot : α) (d : Die) (measure : Measure) (result : Int) :
      Explains (.die slot d) measure [] [] (.sum [result]) result
  | pool (slot : α) (items : List (Node α)) (measure : Measure) (values : List Int) :
      Explains (.pool slot items) measure (items.map fun item => (item, measure)) values
        (.sum values) values.sum
  | selection (slot : α) (s : Selection) (threshold : Nat) (poolSlot : α)
      (items : List (Node α)) (measure : Measure) (values : List Int) :
      Explains (.selection slot s threshold poolSlot items) measure
        (items.map fun item => (item, measure)) values (.sum (s.select threshold values))
        (s.select threshold values).sum
  | arithmetic (slot : α) (operation : Operation) (value : Nat) (inner : Node α)
      (measure : Measure) (direct : measure = .roll ∨ operation.isMonotone value = true)
      (lhs : Int) :
      Explains (.arithmetic slot operation value inner) measure [(inner, measure)] [lhs]
        (.calculation lhs operation value) (operation.apply lhs value)
  /-- For a bound of an even power both bounds of the base are asked for. -/
  | evenPower (slot : α) (value : Nat) (inner : Node α) (side : Extreme) (even : Even value)
      (low high : Int) :
      Explains (.arithmetic slot .power value inner) side.measure
        [(inner, .minimum), (inner, .maximum)] [low, high]
        (.calculation (evenBase side low high) .power value)
        (Operation.power.apply (evenBase side low high) value)
  /-- Each leaf is asked as often as its run of values is long, one leaf after the other. -/
  | explosion (slot : α) (rule : Explosion) (inner : Node α) (runs : List (Node α × List Int))
      (leaves : runs.map Prod.fst = inner.leaves) (each : ∀ run ∈ runs, rule.IsRun run.2) :
      Explains (.explosion slot rule inner) .roll
        (runs.flatMap fun run => List.replicate run.2.length (run.1, .roll))
        (runs.flatMap Prod.snd) (.sum (runs.flatMap Prod.snd)) (runs.flatMap Prod.snd).sum
  | explosionMinimum (slot : α) (rule : Explosion) (inner : Node α) (least : Int) :
      Explains (.explosion slot rule inner) .minimum [(inner, .minimum)] [least]
        (.sum [least]) least
  | explosionMaximum (slot : α) (rule : Explosion) (inner : Node α) :
      Explains (.explosion slot rule inner) .maximum [] [] .unbounded unboundedTotal

/-- The questions of a node are about nodes inside it. -/
theorem Explains.mem_inside {node : Node α} {measure : Measure}
    {questions : List (Node α × Measure)} {values : List Int} {line : Line} {result : Int}
    (explains : node.Explains measure questions values line result) :
    ∀ question ∈ questions, question.1 ∈ node.inside := by
  intro question mem
  cases explains with
  | die => contradiction
  | pool slot items measure =>
      obtain ⟨item, itemMem, rfl⟩ := List.mem_map.mp mem
      exact item_mem_inside_pool slot itemMem
  | selection slot s threshold poolSlot items measure =>
      obtain ⟨item, itemMem, rfl⟩ := List.mem_map.mp mem
      exact item_mem_inside_selection slot s threshold poolSlot itemMem
  | arithmetic slot operation value inner measure =>
      obtain rfl := List.mem_singleton.mp mem
      simp
  | evenPower slot value inner side =>
      simp only [List.mem_cons, List.not_mem_nil, or_false] at mem
      rcases mem with rfl | rfl <;> simp
  | explosion slot rule inner runs leaves =>
      obtain ⟨run, runMem, mem⟩ := List.mem_flatMap.mp mem
      obtain rfl := List.eq_of_mem_replicate mem
      refine leaf_mem_inside_explosion slot rule ?_
      rw [← leaves]
      exact List.mem_map_of_mem runMem
  | explosionMinimum slot rule inner =>
      obtain rfl := List.mem_singleton.mp mem
      simp
  | explosionMaximum => contradiction

end Node

/-! ### Rolls and bounds as questions -/

section

variable {α β : Type}

/-- The rolls of one item of an explosion are rolls of the item in a row, with values that make
a run. -/
theorem rerolls_eq_rollAll (rule : Explosion) (roller : Roller α) (limit position : Nat) :
    ∃ earlier last,
      let rolls := rerolls rule.matches? roller limit position
      rolls = rollAll (List.replicate (earlier ++ [last]).length roller) position ∧
      rolls.values = earlier ++ [last] ∧
      (∀ value ∈ earlier, rule.matches? value = true) ∧ earlier.length ≤ limit ∧
      (rule.matches? last = true → earlier.length = limit) := by
  induction limit generalizing position with
  | zero => exact ⟨[], (roller position).value, by simp [rerolls, rollAll]⟩
  | succ limit ih =>
      cases matched : rule.matches? (roller position).value with
      | true =>
          obtain ⟨earlier, last, same, values, explode, within, cut⟩ := ih (roller position).next
          refine ⟨(roller position).value :: earlier, last, ?_, ?_, ?_, ?_, ?_⟩
          · simp only [rerolls, matched, if_true, same]
            rfl
          · simp [rerolls, matched, values]
          · simpa [matched] using explode
          · simpa using within
          · simpa using cut
      | false =>
          exact ⟨[], (roller position).value, by simp [rerolls, rollAll, matched]⟩

/-- What an explosion rolls are runs of its items, one after the other. -/
theorem explodeAll_eq_rollAll_runs (rule : Explosion) (items : List β) (rollers : β → Roller α)
    (position : Nat) :
    ∃ runs : List (β × List Int),
      let rolls := explodeAll rule (items.map rollers) position
      runs.map Prod.fst = items ∧ (∀ run ∈ runs, rule.IsRun run.2) ∧
      rolls.values = runs.flatMap Prod.snd ∧
      rolls = rollAll
        ((runs.flatMap fun run => List.replicate run.2.length run.1).map rollers) position := by
  induction items generalizing position with
  | nil => exact ⟨[], rfl, by simp, rfl, rfl⟩
  | cons item rest ih =>
      obtain ⟨earlier, last, first, values, explode, within, cut⟩ :=
        rerolls_eq_rollAll rule (rollers item) rule.limit position
      obtain ⟨runs, items, each, others, later⟩ :=
        ih (rerolls rule.matches? (rollers item) rule.limit position).next
      refine ⟨(item, earlier ++ [last]) :: runs, by simp [items], ?_, ?_, ?_⟩
      · exact List.forall_mem_cons.mpr ⟨⟨earlier, last, rfl, explode, within, cut⟩, each⟩
      · simp [explodeAll, values, others]
      · simp only [List.map_cons, explodeAll, List.flatMap_cons, List.map_append,
          List.map_replicate, rollAll_append, ← first, ← later]

namespace Node

theorem reckon_measure (draws : Draws) (node : Node α) (side : Extreme) (position : Nat) :
    node.reckon draws side.measure position
      = ⟨node.extreme side, position, (node.bound side).entries⟩ := by
  cases side <;> rfl

/-- Reckons with several questions in a row. -/
def reckonEach (draws : Draws) (questions : List (Node α × Measure)) : Nat → Rolls α :=
  rollAll (questions.map fun question => question.1.reckon draws question.2)

theorem reckonEach_nil (draws : Draws) (position : Nat) :
    reckonEach (α := α) draws [] position = ⟨[], position, []⟩ := rfl

theorem reckonEach_singleton (draws : Draws) (node : Node α) (measure : Measure)
    (position : Nat) :
    reckonEach draws [(node, measure)] position
      = ⟨[(node.reckon draws measure position).value], (node.reckon draws measure position).next,
          (node.reckon draws measure position).entries⟩ := by
  simp [reckonEach, rollAll]

theorem reckonEach_roll (draws : Draws) (nodes : List (Node α)) :
    reckonEach draws (nodes.map fun node => (node, .roll)) = rollAll (nodes.map (roll draws)) := by
  rw [reckonEach, List.map_map]
  rfl

/-- Bounds that are asked for in a row take no draws. -/
theorem reckonEach_measure (draws : Draws) (nodes : List (Node α)) (side : Extreme)
    (position : Nat) :
    reckonEach draws (nodes.map fun node => (node, side.measure)) position
      = ⟨nodes.map (extreme side), position,
          nodes.flatMap fun node => (node.bound side).entries⟩ := by
  induction nodes with
  | nil => rfl
  | cons node rest ih =>
      simp only [reckonEach, List.map_cons, rollAll, reckon_measure, List.flatMap_cons] at ih ⊢
      rw [ih]

/-- The steps of an answer are those of the questions behind it and one of the node itself,
whose line explains the answer.  Only a die goes on to read a draw of its own. -/
def Explained (draws : Draws) (node : Node α) (measure : Measure) (position : Nat)
    (outcome : Roll α) : Prop :=
  ∃ questions line,
    let parts := reckonEach draws questions position
    outcome.entries = parts.entries ++ [⟨node, measure, line, outcome.value⟩] ∧
    (node.isDie = false → outcome.next = parts.next) ∧
    node.Explains measure questions parts.values line outcome.value

theorem explained_of_parts {draws : Draws} {node : Node α} {measure : Measure} {position : Nat}
    {outcome : Roll α} {questions : List (Node α × Measure)} {parts : Rolls α} {line : Line}
    (asked : reckonEach draws questions position = parts)
    (entries : outcome.entries = parts.entries ++ [⟨node, measure, line, outcome.value⟩])
    (next : node.isDie = false → outcome.next = parts.next)
    (explains : node.Explains measure questions parts.values line outcome.value) :
    node.Explained draws measure position outcome := by
  subst asked
  exact ⟨questions, line, entries, next, explains⟩

theorem explained_roll (draws : Draws) (node : Node α) (position : Nat) :
    node.Explained draws .roll position (node.roll draws position) := by
  cases node with
  | die slot d =>
      rw [roll_die]
      exact explained_of_parts (reckonEach_nil draws position) rfl nofun (.die slot d .roll _)
  | pool slot items =>
      rw [roll_pool]
      exact explained_of_parts (congrFun (reckonEach_roll draws items) position) rfl
        (fun _ => rfl) (.pool slot items .roll _)
  | arithmetic slot operation value inner =>
      rw [roll_arithmetic]
      exact explained_of_parts (reckonEach_singleton draws inner .roll position) rfl
        (fun _ => rfl) (.arithmetic slot operation value inner .roll (.inl rfl) _)
  | selection slot s threshold poolSlot items =>
      rw [roll_selection]
      exact explained_of_parts (congrFun (reckonEach_roll draws items) position) rfl
        (fun _ => rfl) (.selection slot s threshold poolSlot items .roll _)
  | explosion slot rule inner =>
      obtain ⟨runs, leaves, each, values, same⟩ :=
        explodeAll_eq_rollAll_runs rule inner.leaves (roll draws) position
      have asked : reckonEach draws
            (runs.flatMap fun run => List.replicate run.2.length (run.1, .roll)) position
          = explodeAll rule (inner.leaves.map (roll draws)) position := by
        rw [same, ← reckonEach_roll, List.map_flatMap]
        simp only [List.map_replicate]
      rw [roll_explosion]
      refine explained_of_parts asked rfl (fun _ => rfl) ?_
      rw [values]
      exact .explosion slot rule inner runs leaves each

/-- What an answer to a question for a bound is made of. -/
theorem explained_bound (draws : Draws) (node : Node α) (side : Extreme) (position : Nat) :
    node.Explained draws side.measure position
      ⟨(node.bound side).value, position, (node.bound side).entries⟩ := by
  cases node with
  | die slot d =>
      exact explained_of_parts (reckonEach_nil draws position) rfl nofun
        (.die slot d side.measure _)
  | pool slot items =>
      simp only [bound, boundEach_values_eq, boundEach_entries]
      exact explained_of_parts (reckonEach_measure draws items side position) rfl
        (fun _ => rfl) (.pool slot items side.measure _)
  | arithmetic slot operation value inner =>
      cases monotone : operation.isMonotone value with
      | true =>
          have asked := reckonEach_singleton draws inner side.measure position
          rw [reckon_measure] at asked
          simp only [bound, monotone, if_true, bound_value]
          exact explained_of_parts asked rfl (fun _ => rfl)
            (.arithmetic slot operation value inner side.measure (.inr monotone) _)
      | false =>
          obtain ⟨rfl, even⟩ := Operation.even_of_not_isMonotone monotone
          have asked : reckonEach draws [(inner, .minimum), (inner, .maximum)] position
              = ⟨[inner.extreme .lowest, inner.extreme .highest], position,
                  (inner.bound .lowest).entries ++ (inner.bound .highest).entries⟩ := by
            simp [reckonEach, rollAll, reckon]
          simp only [bound, monotone, Bool.false_eq_true, if_false, bound_value]
          exact explained_of_parts asked rfl (fun _ => rfl)
            (.evenPower slot value inner side even _ _)
  | selection slot s threshold poolSlot items =>
      simp only [bound, boundEach_values_eq, boundEach_entries]
      exact explained_of_parts (reckonEach_measure draws items side position) rfl
        (fun _ => rfl) (.selection slot s threshold poolSlot items side.measure _)
  | explosion slot rule inner =>
      cases side with
      | lowest =>
          have asked := reckonEach_singleton draws inner Extreme.lowest.measure position
          rw [reckon_measure] at asked
          simp only [bound, bound_value]
          exact explained_of_parts asked rfl (fun _ => rfl) (.explosionMinimum slot rule inner _)
      | highest =>
          exact explained_of_parts (reckonEach_nil draws position) rfl (fun _ => rfl)
            (.explosionMaximum slot rule inner)

/-- Every answer that is reckoned is explained by its steps. -/
theorem explained_reckon (draws : Draws) (node : Node α) (measure : Measure) (position : Nat) :
    node.Explained draws measure position (node.reckon draws measure position) := by
  cases measure with
  | roll => exact explained_roll draws node position
  | minimum => exact explained_bound draws node .lowest position
  | maximum => exact explained_bound draws node .highest position

/-! ### Questions that are asked in a row -/

/-- Questions in a row go through the steps that are reckoned. -/
theorem comes_askEach (draws : Draws) {questions : List (Node α × Measure)}
    (checked : ∀ question ∈ questions, ∀ sub ∈ question.1.subtrees, sub.Checked) (position : Nat) :
    Comes (.each (questions.map fun question =>
      question.1.ask (.memory everySlot) draws question.2))
      position (reckonEach draws questions position).values
      (reckonEach draws questions position).next (reckonEach draws questions position).entries := by
  refine comes_each ?_ position
  rw [List.forall₂_map_left_iff, List.forall₂_map_right_iff, List.forall₂_same]
  exact fun question mem => comes_ask draws (checked question mem) question.2

/-- Questions to nodes that are followed are heard as if all slots were. -/
theorem askEach_eq_of_followed {heard : α → Bool} (draws : Draws)
    {questions : List (Node α × Measure)}
    (followed : ∀ question ∈ questions, question.1.Followed heard) (position : Nat) :
    askEach heard draws questions position = askEach everySlot draws questions position := by
  have alike : ∀ question ∈ questions, ∀ sub ∈ question.1.subtrees,
      sub.HearAlike Eq (.memory everySlot) (.memory heard) id := by
    rintro question mem sub subMem measure line result known _ rfl
    simp [Listener.memory, HeardAlike, map_id, followed question mem sub subMem]
  have same : Matches Eq
      (.each (questions.map fun question => question.1.ask (.memory everySlot) draws question.2))
      (.each (questions.map fun question => question.1.ask (.memory heard) draws question.2)) := by
    refine Matches.each ?_
    rw [List.forall₂_map_left_iff, List.forall₂_map_right_iff, List.forall₂_same]
    intro question mem
    have matched := ask_matches draws (alike question mem) question.2
    rwa [map_id] at matched
  obtain ⟨result, next, last, _, rfl, ran, ran'⟩ := same position #[] #[] rfl
  rw [askEach, askEach, Evaluation.remembered, Evaluation.remembered, ran, ran']

/-- If questions in a row have results, these are the values that are reckoned. -/
theorem values_of_askEach (draws : Draws) {questions : List (Node α × Measure)} {position : Nat}
    {values : List Int}
    (checked : ∀ question ∈ questions, ∀ sub ∈ question.1.subtrees, sub.Checked)
    (answered : (askEach everySlot draws questions position).result = .ok values) :
    (reckonEach draws questions position).values = values := by
  have comes := comes_askEach draws checked position
  rw [askEach, Evaluation.remembered] at answered
  cases written : (reckonEach draws questions position).entries.all Entry.isWritten with
  | true =>
      rw [comes.finishes written] at answered
      exact Except.ok.inj answered
  | false =>
      obtain ⟨stop, -, -, ran⟩ := comes.stops written #[]
      rw [ran] at answered
      contradiction

/-- The first of several questions have the first values. -/
theorem values_prefix_reckonEach (draws : Draws) {asked questions : List (Node α × Measure)}
    (begins : asked <+: questions) (position : Nat) :
    (reckonEach draws asked position).values <+: (reckonEach draws questions position).values := by
  obtain ⟨rest, rfl⟩ := begins
  rw [reckonEach, reckonEach, List.map_append, rollAll_append]
  exact List.prefix_append _ _

end Node

end

namespace Session

open Node

/-- Where a whole tree is followed, a question to its root adds to the journal what the
questions behind the answer would add, one after the other, and then one report of the root.
This has the name of the root and of the measure, and a line that explains the result.  A question
that ends without a result adds what the questions behind it would add, and no report of the
root: one of them ends so, or the line of the root has a number that is too long.  The questions
are those that explain the answer, as far as they have results. -/
theorem exists_explains_ask {session : Session} {node : Node Nat}
    (followed : node.Followed session.heard) (built : node.Constructed) (draws : Draws)
    (measure : Measure) :
    ∃ questions values line result, node.Explains measure questions values line result ∧
      (∀ question ∈ questions, question.1 ∈ node.inside) ∧
      (∀ asked, asked <+: questions → ∀ known,
        (askEach session.heard draws asked session.position).result = .ok known →
          known <+: values) ∧
      let parts := askEach session.heard draws questions session.position
      let (later, answer) := ask draws session node measure
      (answer = .number result ∧ parts.result = .ok values ∧
        (node.isDie = false → later.position = parts.next) ∧
        ∃ own : Report, later.journal = session.journal ++ parts.entries.map Entry.report ++ [own] ∧
          own.source = node.title ++ "." ++ measure.name ∧
          own.spelling = node.spelling? ∧ own.result = result ∧ own.line = line.text ∧
          ∀ addends, line = .sum addends → Numeral.readSum? own.line = some addends) ∨
      answer = .refused .numberTooLong ∧
        (parts.result = .error .numberTooLong ∨ line.isWritable = false) ∧
        later.journal = session.journal ++ parts.entries.map Entry.report := by
  obtain ⟨questions, line, entries, next, explains⟩ :=
    explained_reckon draws node measure session.position
  have inside := explains.mem_inside
  have checked : ∀ question ∈ questions, ∀ sub ∈ question.1.subtrees, sub.Checked :=
    fun question mem sub subMem => built.checked sub
      (subtrees_subset (List.mem_cons_of_mem node (inside question mem)) subMem)
  -- The questions are about parts of the tree, so that they are followed as well.
  have heard : ∀ question ∈ questions, question.1.Followed session.heard :=
    fun question mem sub subMem =>
      followed sub (subtrees_subset (List.mem_cons_of_mem node (inside question mem)) subMem)
  refine ⟨questions, _, line, _, explains, inside, fun asked begins known answered => ?_, ?_⟩
  · rw [askEach_eq_of_followed draws fun question mem => heard question (begins.subset mem)]
      at answered
    obtain rfl := values_of_askEach draws
      (fun question mem => checked question (begins.subset mem)) answered
    exact values_prefix_reckonEach draws begins session.position
  rw [askEach_eq_of_followed draws heard]
  have comes := comes_askEach draws checked session.position
  simp only [ask, reply_eq_of_followed followed]
  cases written : (node.reckon draws measure session.position).entries.all Entry.isWritten with
  | true =>
      rw [reply_of_written everySlot draws built.checked measure session.position written]
      rw [entries, List.all_append, Bool.and_eq_true] at written
      have asked : askEach everySlot draws questions session.position
          = ⟨.ok (reckonEach draws questions session.position).values,
              (reckonEach draws questions session.position).next,
              (reckonEach draws questions session.position).entries⟩ := by
        rw [askEach, Evaluation.remembered, comes.finishes written.1]
        simp
      have writable : line.isWritable = true := by simpa [Entry.isWritten] using written.2
      refine .inl ⟨rfl, by rw [asked], fun noDie => by rw [asked]; exact next noDie,
        Entry.report ⟨node, measure, line, _⟩, ?_, rfl, rfl, rfl, rfl, ?_⟩
      · rw [asked, heardOf_everySlot, entries]
        simp [record]
      · rintro addends rfl
        exact Numeral.readSum?_text writable
  | false =>
      obtain ⟨_, _, _, same⟩ :=
        reply_of_not_written everySlot draws built.checked measure session.position written
      rw [same]
      rw [entries] at written
      rw [entries, heardOf_everySlot]
      -- Either a question behind the answer has ended, or the line of the node is too long.
      cases parts : (reckonEach draws questions session.position).entries.all Entry.isWritten with
      | true =>
          have tooLong : line.isWritable = false := by
            simpa [parts, Entry.isWritten] using written
          refine .inr ⟨rfl, .inr tooLong, ?_⟩
          rw [askEach, Evaluation.remembered, comes.finishes parts, writtenOf_append_of_all parts]
          simp [writtenOf, Entry.isWritten, tooLong, record]
      | false =>
          obtain ⟨stop, -, -, ran⟩ := comes.stops parts #[]
          refine .inr ⟨rfl, .inl ?_, ?_⟩
          · rw [askEach, Evaluation.remembered, ran]
          · rw [askEach, Evaluation.remembered, ran, writtenOf_append_of_not parts]
            simp [record]

/-- The text `(D4!>3)^2`, with its nodes followed, is asked for its maximum: for that the base
is asked for its minimum and then for its maximum. -/
theorem square_of_explosion_explains_maximum :
    let draws : Draws := .cycle #[3, 0]
    let text : Text := ['(', 'D', '4', '!', '>', '3', ')', '^', '2']
    let session := (empty.step draws (.make "square" true (.expression text (some ['6']) 100))).1
    let base : Node Nat := .explosion 1 ⟨.greater, 3, 100⟩ (.pool 2 [.die 3 (.sided 4)])
    let node : Node Nat := .arithmetic 0 .power 2 base
    session.find "square" = .ok node ∧ node.Followed session.heard ∧ node.Constructed ∧
      ∃ questions values line result, node.Explains .maximum questions values line result ∧
        (∀ question ∈ questions, question.1 ∈ node.inside) ∧
        (∀ asked, asked <+: questions → ∀ known,
          (askEach session.heard draws asked session.position).result = .ok known →
            known <+: values) ∧
        let parts := askEach session.heard draws questions session.position
        let (later, answer) := ask draws session node .maximum
        (answer = .number result ∧ parts.result = .ok values ∧
          (node.isDie = false → later.position = parts.next) ∧
          ∃ own : Report,
            later.journal = session.journal ++ parts.entries.map Entry.report ++ [own] ∧
            own.source = node.title ++ "." ++ Measure.name .maximum ∧
            own.spelling = node.spelling? ∧ own.result = result ∧ own.line = line.text ∧
            ∀ addends, line = .sum addends → Numeral.readSum? own.line = some addends) ∨
        answer = .refused .numberTooLong ∧
          (parts.result = .error .numberTooLong ∨ line.isWritable = false) ∧
          later.journal = session.journal ++ parts.entries.map Entry.report := by
  intro draws text session base node
  have found : session.find "square" = .ok node := rfl
  have followed : node.Followed session.heard := by
    unfold Followed
    decide
  have poolBuilt : (ofItems 2 [.die 3 (.sided 4)]).Constructed :=
    .pool 2 (by simpa using Constructed.sided 3 4 rfl)
  have baseBuilt : base.Constructed := .explosion everySlot 1 ['>'] 3 100 0 poolBuilt rfl
  have built : node.Constructed := .arithmetic 0 ['^'] 2 baseBuilt rfl
  exact ⟨found, followed, built, exists_explains_ask followed built draws .maximum⟩

/-- The power `D6^9999` has a greatest value that cannot stand in the line of the sum `D6^9999+1`:
asked for its maximum the sum makes known what its parts did, and nothing about itself. -/
theorem long_power_is_not_explained :
    let text : Text := ['d', '6', '^', '9', '9', '9', '9', '+', '1']
    let draws : Draws := .cycle #[0]
    let session := (empty.step draws (.make "sum" true (.expression text (some ['6']) 100))).1
    let power : Node Nat := .arithmetic 1 .power 9999 (.pool 2 [.die 3 (.sided 6)])
    let node : Node Nat := .arithmetic 0 .add 1 power
    let (later, answer) := ask draws session node .maximum
    session.find "sum" = .ok node ∧ node.Followed session.heard ∧ node.Constructed ∧
      answer = .refused .numberTooLong ∧
      later.journal = session.journal ++ (power.bound .highest).entries.map Entry.report ∧
      (power.bound .highest).entries.map (fun entry => entry.node.slot) = [3, 2, 1] := by
  intro text draws session power node
  have found : session.find "sum" = .ok node := rfl
  have followed : node.Followed session.heard := by
    unfold Followed
    decide
  have poolBuilt : (ofItems 2 [.die 3 (.sided 6)]).Constructed :=
    .pool 2 (by simpa using Constructed.sided 3 6 rfl)
  have powerBuilt : power.Constructed := .arithmetic 1 ['^'] 9999 poolBuilt rfl
  have built : node.Constructed := .arithmetic 0 ['+'] 1 powerBuilt rfl
  have raised : power.extreme .highest = Operation.power.apply 6 9999 := by
    have odd : Operation.isMonotone .power 9999 = true := rfl
    rw [extreme_arithmetic, if_pos odd]
    rfl
  -- The lines of the power can be written, and the one of the sum cannot.
  have known : (power.bound .highest).entries.all Entry.isWritten = true := by
    have odd : Operation.isMonotone .power 9999 = true := rfl
    change power.isReported .highest = true
    rw [isReported_arithmetic, if_pos odd]
    decide
  have steps : (node.bound .highest).entries = (power.bound .highest).entries ++
      [⟨node, .maximum, .calculation (power.extreme .highest) .add 1, node.extreme .highest⟩] := rfl
  have tooLong : node.isReported .highest = false := by
    have monotone : Operation.isMonotone .add 1 = true := rfl
    rw [isReported_arithmetic, if_pos monotone, raised, Operation.power_six_not_isWritable,
      Bool.and_false, Bool.false_and]
  have written : writtenOf (node.bound .highest).entries = (power.bound .highest).entries := by
    have unwritten : Entry.isWritten ⟨node, .maximum,
        .calculation (power.extreme .highest) .add 1, node.extreme .highest⟩ = false := by
      rw [Entry.isWritten, Line.isWritable, raised, Operation.power_six_not_isWritable,
        Bool.false_and]
    rw [steps, writtenOf_append_of_all known, writtenOf,
      List.takeWhile_cons_of_neg (by simp [unwritten]), List.append_nil]
  obtain ⟨_, _, _, refused⟩ :=
    reply_of_not_written everySlot draws built.checked .maximum session.position tooLong
  refine ⟨found, followed, built, ?_, ?_, rfl⟩
  · rw [reply_eq_of_followed followed, refused]
    rfl
  · rw [reply_eq_of_followed followed, refused, heardOf_everySlot]
    exact congrArg (session.journal ++ ·) (congrArg (List.map Entry.report) written)

end Session

end DicePool
