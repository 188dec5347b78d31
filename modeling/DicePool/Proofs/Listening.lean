/-
Module: DicePool.Proofs.Listening
Purpose: Who is listening changes which steps are heard, and neither results nor draws.
Main exports: Evaluation.run_bind_of_ok, Matches, Node.ask_matches, heardOf, Outcome.inSlots,
  Node.reply_map, Node.reply_eq_restrict, Node.run_ask_of_accepted, Still, Node.still_askBound,
  Node.reply_measure
-/
import Mathlib.Data.List.Forall2
import DicePool.Node.Ask
import DicePool.Proofs.Slots

/-!
Two evaluations match if they come to the same result on the same draws, and if what their
listeners make of the steps stays related (`Matches`).  Matching evaluations match in a row, in a
sequence and in an explosion.  So a whole tree is evaluated alike by two listeners as soon as they
hear each single step of it alike, even where the tree stands in other slots: `Node.ask_matches`.

What is remembered is always what is remembered when every slot is heard, with the steps of the
others left out (`Node.reply_eq_restrict`), and a listener that refuses nothing is told of all
steps in order (`Node.run_ask_of_accepted`).

A question for a bound reads no draws, and so its answer is the same at any time:
`Node.reply_measure`.
-/

namespace DicePool

variable {σ τ α β γ : Type}

namespace Evaluation

/-! ### Running -/

theorem run_bind_of_ok {evaluation : Evaluation σ β} {later : β → Evaluation σ γ} {value : β}
    {standing next : Standing σ} (first : evaluation.run standing = (.ok value, next)) :
    (evaluation >>= later).run standing = (later value).run next := by
  rw [ExceptT.run_bind]
  simp only [bind, StateT.bind, first]

/-- Where an evaluation ends, what was to come later is left undone. -/
theorem run_bind_of_error {evaluation : Evaluation σ β} {later : β → Evaluation σ γ} {fault : Fault}
    {standing next : Standing σ} (first : evaluation.run standing = (.error fault, next)) :
    (evaluation >>= later).run standing = (.error fault, next) := by
  rw [ExceptT.run_bind]
  simp only [bind, StateT.bind, first]
  rfl

theorem run_tell {hear : Listener σ α} {node : Node α} {measure : Measure} {line : Line}
    {result : Int} (writable : line.isWritable = true) (standing : Standing σ) :
    (tell hear node measure line result).run standing =
      match hear standing.known ⟨node, measure, line, result⟩ with
      | .ok known => (.ok result, ⟨standing.position, known⟩)
      | .error fault => (.error fault, standing) :=
  if_pos writable

theorem run_tell_of_not {hear : Listener σ α} {node : Node α} {measure : Measure} {line : Line}
    {result : Int} (tooLong : line.isWritable = false) (standing : Standing σ) :
    (tell hear node measure line result).run standing = (.error .numberTooLong, standing) :=
  if_neg (by simp [tooLong])

end Evaluation

/-! ### Evaluations that match -/

/-- Both listeners have heard the step and know related things, or both refuse it for the same
reason. -/
def HeardAlike (related : σ → τ → Prop) : Except Fault σ → Except Fault τ → Prop
  | .ok known, .ok other => related known other
  | .error fault, .error other => fault = other
  | _, _ => False

/-- From related beginnings on, the evaluations come to the same result on the same draws, and to
related ends. -/
def Matches (related : σ → τ → Prop) (one : Evaluation σ β) (two : Evaluation τ β) : Prop :=
  ∀ position known other, related known other →
    ∃ result next last end', related last end' ∧
      one.run ⟨position, known⟩ = (result, ⟨next, last⟩) ∧
      two.run ⟨position, other⟩ = (result, ⟨next, end'⟩)

namespace Matches

open Evaluation

variable {related : σ → τ → Prop}

theorem pure (value : β) :
    Matches related (Pure.pure value : Evaluation σ β) (Pure.pure value) :=
  fun position known other start => ⟨.ok value, position, known, other, start, rfl, rfl⟩

theorem answer (result : Except Fault β) :
    Matches related (Evaluation.answer result) (Evaluation.answer result) :=
  fun position known other start => ⟨result, position, known, other, start, rfl, rfl⟩

theorem draw (draws : Draws) : Matches related (Evaluation.draw draws) (Evaluation.draw draws) :=
  fun position known other start =>
    ⟨.ok (draws position), position + 1, known, other, start, rfl, rfl⟩

theorem bind {one : Evaluation σ β} {two : Evaluation τ β} {later : β → Evaluation σ γ}
    {later' : β → Evaluation τ γ} (first : Matches related one two)
    (second : ∀ value, Matches related (later value) (later' value)) :
    Matches related (one >>= later) (two >>= later') := by
  intro position known other start
  obtain ⟨result, next, last, end', finish, ran, ran'⟩ := first position known other start
  cases result with
  | error fault =>
      exact ⟨.error fault, next, last, end', finish, run_bind_of_error ran, run_bind_of_error ran'⟩
  | ok value =>
      rw [run_bind_of_ok ran, run_bind_of_ok ran']
      exact second value next last end' finish

theorem tell {hear : Listener σ α} {hear' : Listener τ γ} {node : Node α} {node' : Node γ}
    {measure : Measure} {line : Line} {result : Int}
    (alike : ∀ known other, related known other →
      HeardAlike related (hear known ⟨node, measure, line, result⟩)
        (hear' other ⟨node', measure, line, result⟩)) :
    Matches related (Evaluation.tell hear node measure line result)
      (Evaluation.tell hear' node' measure line result) := by
  intro position known other start
  cases writable : line.isWritable with
  | false =>
      exact ⟨.error .numberTooLong, position, known, other, start, run_tell_of_not writable _,
        run_tell_of_not writable _⟩
  | true =>
      have both := alike known other start
      rw [run_tell writable, run_tell writable]
      revert both
      rcases hear known ⟨node, measure, line, result⟩ with fault | last <;>
        rcases hear' other ⟨node', measure, line, result⟩ with fault' | end'
      · rintro rfl
        exact ⟨.error fault, position, known, other, start, rfl, rfl⟩
      · exact False.elim
      · exact False.elim
      · exact fun finish => ⟨.ok result, position, last, end', finish, rfl, rfl⟩

variable {ones : List (Evaluation σ β)} {twos : List (Evaluation τ β)}

/-- Evaluations that match one by one match in a row. -/
theorem each (all : List.Forall₂ (Matches related) ones twos) :
    Matches related (Evaluation.each ones) (Evaluation.each twos) := by
  induction all with
  | nil => exact .pure []
  | cons first _ ih => exact first.bind fun value => ih.bind fun others => .pure (value :: others)

theorem repeated (again : Int → Bool) {one : Evaluation σ Int} {two : Evaluation τ Int}
    (once : Matches related one two) (limit : Nat) :
    Matches related (Evaluation.repeated again one limit)
      (Evaluation.repeated again two limit) := by
  induction limit with
  | zero => exact once.bind fun only => .pure [only]
  | succ limit ih =>
      refine once.bind fun first => ?_
      split
      · exact ih.bind fun others => .pure (first :: others)
      · exact .pure [first]

theorem exploded (rule : Explosion) {ones : List (Evaluation σ Int)}
    {twos : List (Evaluation τ Int)} (all : List.Forall₂ (Matches related) ones twos) :
    Matches related (Evaluation.exploded rule ones) (Evaluation.exploded rule twos) := by
  induction all with
  | nil => exact .pure []
  | cons first _ ih =>
      exact (first.repeated rule.matches? rule.limit).bind fun values =>
        ih.bind fun others => .pure (values ++ others)

end Matches

/-! ### Trees that are evaluated alike -/

namespace Node

/-- The listeners hear the steps of the node alike, in whatever slot it stands for each. -/
def HearAlike (related : σ → τ → Prop) (hear : Listener σ α) (hear' : Listener τ γ) (f : α → γ)
    (node : Node α) : Prop :=
  ∀ measure line result known other, related known other →
    HeardAlike related (hear known ⟨node, measure, line, result⟩)
      (hear' other ⟨node.map f, measure, line, result⟩)

variable {related : σ → τ → Prop} {hear : Listener σ α} {hear' : Listener τ γ} {f : α → γ}

theorem HearAlike.tell {node : Node α} (alike : node.HearAlike related hear hear' f)
    (measure : Measure) (line : Line) (result : Int) :
    Matches related (Evaluation.tell hear node measure line result)
      (Evaluation.tell hear' (node.map f) measure line result) :=
  Matches.tell fun known other start => alike measure line result known other start

theorem askBoundEach_eq (hear : Listener σ α) (items : List (Node α)) (side : Extreme) :
    askBoundEach hear items side = Evaluation.each (items.map (askBound hear · side)) := by
  induction items with
  | nil => rfl
  | cons node rest ih => rw [askBoundEach, ih]; rfl

theorem forall₂_map {items : List (Node α)} {one : Node α → Evaluation σ β}
    (two : Node γ → Evaluation τ β)
    (each : ∀ item ∈ items, Matches related (one item) (two (item.map f))) :
    List.Forall₂ (Matches related) (items.map one) ((items.map (map f)).map two) := by
  rw [List.map_map, List.forall₂_map_left_iff, List.forall₂_map_right_iff, List.forall₂_same]
  exact each

/-- A bound is worked out alike by listeners that hear each step of the tree alike. -/
theorem askBound_matches {node : Node α}
    (alike : ∀ sub ∈ node.subtrees, sub.HearAlike related hear hear' f) (side : Extreme) :
    Matches related (node.askBound hear side) ((node.map f).askBound hear' side) := by
  refine induction_everywhere
    (motive := fun node => ∀ side,
      Matches related (node.askBound hear side) ((node.map f).askBound hear' side))
    (fun node self ih side => ?_) alike side
  cases node with
  | die slot d => exact (Matches.answer _).bind fun value => self.tell _ _ value
  | pool slot items =>
      have each := Matches.each <| forall₂_map (f := f) (askBound hear' · side)
        fun item mem => ih item (item_mem_inside_pool slot mem) side
      simp only [map, mapEach_eq_map, HearAlike, askBound, askBoundEach_eq] at self ⊢
      exact each.bind fun values => Matches.tell fun _ _ => self _ _ _ _ _
  | arithmetic slot operation value inner =>
      have base := ih inner (by simp)
      simp only [map, askBound]
      split
      · exact (base side).bind fun _ => (Matches.answer _).bind fun result => self.tell _ _ result
      · exact (base .lowest).bind fun _ => (base .highest).bind fun _ =>
          (Matches.answer _).bind fun result => self.tell _ _ result
  | selection slot s threshold poolSlot items =>
      have each := Matches.each <| forall₂_map (f := f) (askBound hear' · side)
        fun item mem => ih item (item_mem_inside_selection slot s threshold poolSlot mem) side
      simp only [map, mapEach_eq_map, HearAlike, askBound, askBoundEach_eq] at self ⊢
      exact each.bind fun values => Matches.tell fun _ _ => self _ _ _ _ _
  | explosion slot rule inner =>
      cases side with
      | lowest => exact (ih inner (by simp) .lowest).bind fun least => self.tell _ _ least
      | highest => exact self.tell _ _ _

/-- A node is rolled alike by listeners that hear each step of the tree alike. -/
theorem askRoll_matches (draws : Draws) {node : Node α}
    (alike : ∀ sub ∈ node.subtrees, sub.HearAlike related hear hear' f) :
    Matches related (node.askRoll hear draws) ((node.map f).askRoll hear' draws) := by
  refine induction_everywhere
    (motive := fun node =>
      Matches related (node.askRoll hear draws) ((node.map f).askRoll hear' draws))
    (fun node self ih => ?_) alike
  cases node with
  | die slot d =>
      rw [map, askRoll_die, askRoll_die]
      exact (Matches.draw draws).bind fun _ =>
        (Matches.answer _).bind fun value => self.tell _ _ value
  | pool slot items =>
      have each := Matches.each <| forall₂_map (f := f) (askRoll hear' draws)
        fun item mem => ih item (item_mem_inside_pool slot mem)
      simp only [map, mapEach_eq_map, HearAlike, askRoll_pool] at self ⊢
      exact each.bind fun values => Matches.tell fun _ _ => self _ _ _ _ _
  | arithmetic slot operation value inner =>
      rw [map, askRoll_arithmetic, askRoll_arithmetic]
      exact (ih inner (by simp)).bind fun _ =>
        (Matches.answer _).bind fun result => self.tell _ _ result
  | selection slot s threshold poolSlot items =>
      have each := Matches.each <| forall₂_map (f := f) (askRoll hear' draws)
        fun item mem => ih item (item_mem_inside_selection slot s threshold poolSlot mem)
      simp only [map, mapEach_eq_map, HearAlike, askRoll_selection] at self ⊢
      exact each.bind fun values => Matches.tell fun _ _ => self _ _ _ _ _
  | explosion slot rule inner =>
      have leaves := Matches.exploded rule <| forall₂_map (f := f) (askRoll hear' draws)
        fun leaf mem => ih leaf (leaf_mem_inside_explosion slot rule mem)
      rw [map, askRoll_explosion, askRoll_explosion, leaves_map]
      exact leaves.bind fun values => self.tell _ _ _

/-- A question is answered alike for listeners that hear each step of the tree alike. -/
theorem ask_matches (draws : Draws) {node : Node α}
    (alike : ∀ sub ∈ node.subtrees, sub.HearAlike related hear hear' f) (measure : Measure) :
    Matches related (node.ask hear draws measure) ((node.map f).ask hear' draws measure) := by
  cases measure with
  | roll => exact askRoll_matches draws alike
  | minimum => exact askBound_matches alike .lowest
  | maximum => exact askBound_matches alike .highest

end Node

/-! ### What is remembered -/

/-- The slots of all nodes are heard. -/
abbrev everySlot : α → Bool :=
  fun _ => true

/-- The steps of the nodes that are heard. -/
def heardOf (heard : α → Bool) (entries : List (Entry α)) : List (Entry α) :=
  entries.filter fun entry => heard entry.node.slot

@[simp] theorem heardOf_append (heard : α → Bool) (entries later : List (Entry α)) :
    heardOf heard (entries ++ later) = heardOf heard entries ++ heardOf heard later := by
  simp [heardOf]

@[simp] theorem heardOf_everySlot (entries : List (Entry α)) :
    heardOf everySlot entries = entries := by
  simp [heardOf]

/-- The outcome in other slots, with the steps that are heard there. -/
def Outcome.inSlots (f : α → γ) (heard : γ → Bool) (outcome : Outcome α β) : Outcome γ β :=
  ⟨outcome.result, outcome.next, heardOf heard (outcome.entries.map (Node.stepIn f))⟩

/-- The outcome with only the steps that are heard. -/
def Outcome.restrict (heard : α → Bool) (outcome : Outcome α β) : Outcome α β :=
  ⟨outcome.result, outcome.next, heardOf heard outcome.entries⟩

namespace Matches

/-- What a memory in other slots holds beside one that holds everything. -/
def Remembers (f : α → γ) (heard : γ → Bool) (all : Array (Entry α)) (entries : Array (Entry γ)) :
    Prop :=
  entries.toList = heardOf heard (all.toList.map (Node.stepIn f))

theorem remembered {f : α → γ} {heard : γ → Bool} {one : Evaluation (Array (Entry α)) β}
    {two : Evaluation (Array (Entry γ)) β} (same : Matches (Remembers f heard) one two)
    (position : Nat) : two.remembered position = (one.remembered position).inSlots f heard := by
  obtain ⟨result, next, last, end', finish, ran, ran'⟩ := same position #[] #[] rfl
  rw [Evaluation.remembered, Evaluation.remembered, ran, ran', Outcome.inSlots, ← finish]

end Matches

namespace Node

theorem hearAlike_memory (f : α → γ) (heard : γ → Bool) (node : Node α) :
    node.HearAlike (Matches.Remembers f heard) (.memory everySlot) (.memory heard) f := by
  intro measure line result known other start
  simp only [Listener.memory, HeardAlike, Matches.Remembers, if_true, Array.toList_push,
    List.map_append, heardOf_append] at start ⊢
  split
  · next mark => simp [start, heardOf, stepIn, mark]
  · next mark => simp [start, heardOf, stepIn, mark]

/-- A tree in other slots answers alike, and its steps are those of the tree. -/
theorem reply_map (f : α → γ) (heard : γ → Bool) (draws : Draws) (node : Node α) (measure : Measure)
    (position : Nat) :
    (node.map f).reply heard draws measure position
      = (node.reply everySlot draws measure position).inSlots f heard :=
  (ask_matches draws (fun sub _ => hearAlike_memory f heard sub) measure).remembered position

theorem stepIn_id (entry : Entry α) : stepIn id entry = entry := by
  rw [stepIn, map_id]

theorem Outcome.inSlots_id (heard : α → Bool) (outcome : Outcome α β) :
    outcome.inSlots id heard = outcome.restrict heard := by
  rw [Outcome.inSlots, Outcome.restrict, List.map_congr_left fun entry _ => stepIn_id entry,
    List.map_id']

/-- What is remembered of some slots is what is remembered of all of them, with the other steps
left out. -/
theorem reply_eq_restrict (heard : α → Bool) (draws : Draws) (node : Node α) (measure : Measure)
    (position : Nat) :
    node.reply heard draws measure position
      = (node.reply everySlot draws measure position).restrict heard := by
  rw [← Outcome.inSlots_id, ← reply_map, map_id]

/-- Listening does not change the result. -/
theorem result_reply (heard : α → Bool) (draws : Draws) (node : Node α) (measure : Measure)
    (position : Nat) :
    (node.reply heard draws measure position).result
      = (node.reply everySlot draws measure position).result := by
  rw [reply_eq_restrict]
  rfl

/-- The listener accepts every step of the node. -/
def AcceptedBy (hear : Listener σ α) (node : Node α) : Prop :=
  ∀ measure line result known, ∃ later, hear known ⟨node, measure, line, result⟩ = .ok later

/-- From the start on, the listener has been told of all steps that are remembered. -/
def ToldOf (hear : Listener σ α) (start : σ) (all : Array (Entry α)) (known : σ) : Prop :=
  all.toList.foldlM hear start = .ok known

theorem AcceptedBy.hearAlike {hear : Listener σ α} {node : Node α} (accepted : node.AcceptedBy hear)
    (start : σ) : node.HearAlike (ToldOf hear start) (.memory everySlot) hear id := by
  intro measure line result all known told
  obtain ⟨later, heard⟩ := accepted measure line result known
  simp only [ToldOf] at told
  simp only [map_id, heard, Listener.memory, HeardAlike, ToldOf, if_true, Array.toList_push]
  rw [List.foldlM_append, told]
  change List.foldlM hear known [_] = .ok later
  rw [List.foldlM_cons, heard]
  rfl

/-- Who is told of what a memory holds comes to the same, and is told of all steps in order. -/
theorem run_of_toldOf {hear : Listener σ α} {start : σ} {one : Evaluation (Array (Entry α)) β}
    {two : Evaluation σ β} (same : Matches (ToldOf hear start) one two) (position : Nat) :
    let outcome := one.remembered position
    ∃ last, outcome.entries.foldlM hear start = .ok last ∧
      two.run ⟨position, start⟩ = (outcome.result, ⟨outcome.next, last⟩) := by
  obtain ⟨result, next, all, last, told, ran, ran'⟩ := same position #[] start rfl
  rw [Evaluation.remembered, ran]
  exact ⟨last, told, ran'⟩

/-- A listener that accepts all steps of a tree is told of them in order. -/
theorem run_ask_of_accepted {hear : Listener σ α} (draws : Draws) {node : Node α}
    (accepted : ∀ sub ∈ node.subtrees, sub.AcceptedBy hear) (measure : Measure) (position : Nat)
    (known : σ) :
    let outcome := node.reply everySlot draws measure position
    ∃ last, outcome.entries.foldlM hear known = .ok last ∧
      (node.ask hear draws measure).run ⟨position, known⟩
        = (outcome.result, ⟨outcome.next, last⟩) := by
  have same := ask_matches draws (fun sub mem => (accepted sub mem).hearAlike known) measure
  rw [map_id] at same
  exact run_of_toldOf same position

/-- Both memories hold the same steps, and these are steps of the tree. -/
def InTree (node : Node α) (known other : Array (Entry α)) : Prop :=
  known = other ∧ ∀ entry ∈ known, entry.node ∈ node.subtrees

theorem hearAlike_inTree {node sub : Node α} (mem : sub ∈ node.subtrees) :
    sub.HearAlike node.InTree (.memory everySlot) (.memory everySlot) id := by
  rintro measure line result known _ ⟨rfl, inTree⟩
  refine ⟨by rw [map_id], ?_⟩
  simpa [or_imp, forall_and] using ⟨inTree, mem⟩

/-- What goes on to hold steps of the tree only has held no others. -/
theorem node_mem_subtrees_of_matches {node : Node α} {one two : Evaluation (Array (Entry α)) β}
    (same : Matches node.InTree one two) {position : Nat} {entry : Entry α}
    (mem : entry ∈ (one.remembered position).entries) : entry.node ∈ node.subtrees := by
  obtain ⟨result, next, last, -, ⟨-, inTree⟩, ran, -⟩ := same position #[] #[] ⟨rfl, by simp⟩
  rw [Evaluation.remembered, ran] at mem
  exact inTree entry (Array.mem_toList_iff.mp mem)

/-- Every step that is remembered is a step of a node of the tree. -/
theorem node_mem_subtrees_of_mem_reply {heard : α → Bool} {draws : Draws} {node : Node α}
    {measure : Measure} {position : Nat} {entry : Entry α}
    (mem : entry ∈ (node.reply heard draws measure position).entries) :
    entry.node ∈ node.subtrees := by
  rw [reply_eq_restrict] at mem
  exact node_mem_subtrees_of_matches (ask_matches draws (fun sub => hearAlike_inTree) measure)
    (List.mem_filter.mp mem).1

end Node

/-! ### Questions that read no draws -/

/-- The evaluation reads no draws, and comes to the same wherever the stream stands. -/
def Still (evaluation : Evaluation σ β) : Prop :=
  ∀ known, ∃ result last, ∀ position,
    evaluation.run ⟨position, known⟩ = (result, ⟨position, last⟩)

namespace Still

theorem pure (value : β) : Still (Pure.pure value : Evaluation σ β) :=
  fun known => ⟨.ok value, known, fun _ => rfl⟩

theorem answer (result : Except Fault β) : Still (Evaluation.answer result : Evaluation σ β) :=
  fun known => ⟨result, known, fun _ => rfl⟩

theorem bind {evaluation : Evaluation σ β} {later : β → Evaluation σ γ} (first : Still evaluation)
    (second : ∀ value, Still (later value)) : Still (evaluation >>= later) := by
  intro known
  obtain ⟨result, last, ran⟩ := first known
  cases result with
  | error fault =>
      exact ⟨.error fault, last, fun position => Evaluation.run_bind_of_error (ran position)⟩
  | ok value =>
      obtain ⟨result, last', ran'⟩ := second value last
      refine ⟨result, last', fun position => ?_⟩
      rw [Evaluation.run_bind_of_ok (ran position), ran']

theorem tell (hear : Listener σ α) (node : Node α) (measure : Measure) (line : Line)
    (result : Int) :
    Still (Evaluation.tell hear node measure line result) := by
  intro known
  cases writable : line.isWritable with
  | false =>
      exact ⟨.error .numberTooLong, known, fun _ => Evaluation.run_tell_of_not writable _⟩
  | true =>
      simp only [Evaluation.run_tell writable]
      cases hear known ⟨node, measure, line, result⟩ with
      | error fault => exact ⟨.error fault, known, fun _ => rfl⟩
      | ok last => exact ⟨.ok result, last, fun _ => rfl⟩

theorem each {evaluations : List (Evaluation σ β)}
    (all : ∀ evaluation ∈ evaluations, Still evaluation) :
    Still (Evaluation.each evaluations) := by
  induction evaluations with
  | nil => exact .pure []
  | cons first rest ih =>
      exact (all first (by simp)).bind fun value =>
        (ih fun evaluation mem => all evaluation (by simp [mem])).bind fun others =>
          .pure (value :: others)

end Still

namespace Node

theorem still_askBoundEach {hear : Listener σ α} {items : List (Node α)} {side : Extreme}
    (each : ∀ item ∈ items, Still (item.askBound hear side)) :
    Still (askBoundEach hear items side) := by
  rw [askBoundEach_eq]
  refine Still.each fun evaluation mem => ?_
  obtain ⟨item, itemMem, rfl⟩ := List.mem_map.mp mem
  exact each item itemMem

/-- A question for a bound reads no draws. -/
theorem still_askBound (hear : Listener σ α) (node : Node α) (side : Extreme) :
    Still (node.askBound hear side) := by
  induction node generalizing side with
  | die slot d => exact (Still.answer _).bind fun _ => .tell _ _ _ _ _
  | pool slot items ih =>
      exact (still_askBoundEach fun item mem => ih item mem side).bind fun _ => .tell _ _ _ _ _
  | arithmetic slot operation value inner ih =>
      rw [askBound]
      split
      · exact (ih side).bind fun _ => (Still.answer _).bind fun _ => .tell _ _ _ _ _
      · exact (ih .lowest).bind fun _ => (ih .highest).bind fun _ =>
          (Still.answer _).bind fun _ => .tell _ _ _ _ _
  | selection slot s threshold poolSlot items ih =>
      exact (still_askBoundEach fun item mem => ih item mem side).bind fun _ => .tell _ _ _ _ _
  | explosion slot rule inner ih =>
      cases side with
      | lowest => exact (ih .lowest).bind fun _ => .tell _ _ _ _ _
      | highest => exact .tell _ _ _ _ _

/-- A bound is worked out alike at any time, whoever remembers the steps. -/
theorem run_askBound (heard : α → Bool) (node : Node α) (side : Extreme)
    (standing : Standing (Array (Entry α))) :
    ∃ last, (node.askBound (.memory heard) side).run standing
      = (node.reported side, ⟨standing.position, last⟩) := by
  obtain ⟨position, known⟩ := standing
  -- What is remembered of the steps has no influence on the result.
  have unheeded : ∀ sub : Node α, sub.HearAlike (fun _ _ => True) (.memory fun _ => false)
      (.memory heard) id := fun _ _ _ _ _ _ _ => trivial
  have same : Matches (fun _ _ => True) (node.askBound (.memory fun _ => false) side)
      ((node.map id).askBound (.memory heard) side) :=
    askBound_matches (fun sub _ => unheeded sub) side
  obtain ⟨reported, silent, ranSilent⟩ := still_askBound (.memory fun _ => false) node side #[]
  obtain ⟨result, next, last, end', -, ran, ran'⟩ := same position #[] known trivial
  rw [map_id] at ran'
  rw [ranSilent] at ran
  obtain ⟨rfl, moved⟩ := Prod.mk.inj ran
  obtain ⟨rfl, -⟩ := Standing.mk.inj moved
  refine ⟨end', ?_⟩
  rw [ran', Node.reported, Evaluation.remembered, ranSilent]

/-- A bound is reported alike at any time and whoever listens. -/
theorem reply_measure (heard : α → Bool) (draws : Draws) (node : Node α) (side : Extreme)
    (position : Nat) :
    (node.reply heard draws side.measure position).result = node.reported side ∧
      (node.reply heard draws side.measure position).next = position := by
  obtain ⟨last, ran⟩ := run_askBound heard node side ⟨position, #[]⟩
  cases side <;> simp only [reply, ask, Extreme.measure, Evaluation.remembered, ran, and_self]

end Node

end DicePool
