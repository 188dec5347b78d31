/-
Module: DicePool.Proofs.Enduring
Purpose: A node remains what it is, and questions about nodes leave no trace in what is rolled.
Main exports: Question, Question.answer, Session.step_about, Session.inhabitants_subset_after,
  Session.find_after, Request.moving, Session.nodes_endure
-/
import DicePool.Proofs.Making

/-!
A slot tells which node is meant, at all times: nodes are never taken from a session, and no
two nodes of a session share a slot, so a slot that held a node holds that node for ever
(`Session.eq_of_same_slot`).  The answers to questions depend on nothing but the node.

On the other hand, questions change nothing but the journal.  With or without them a run gives
the same results: `Session.resultsOf_moving`.
-/

namespace DicePool

/-! ### Questions -/

/-- What can be asked of a node without rolling it. -/
inductive Question where
  | minimum
  | maximum
  | size
  | count
  | isEmpty
  | spelling
  | innerSpelling
  | wraps
  | tree
  | select (values : List Int)
  | matches (value : Int)
  | calculate (lhs : Int)

namespace Question

/-- The question about the node of a name. -/
def about (name : String) : Question → Request
  | .minimum => .ask name .minimum
  | .maximum => .ask name .maximum
  | .size => .size name
  | .count => .count name
  | .isEmpty => .isEmpty name
  | .spelling => .spelling name
  | .innerSpelling => .innerSpelling name
  | .wraps => .wraps name
  | .tree => .tree name
  | .select values => .select name values
  | .matches value => .matches name value
  | .calculate lhs => .calculate name lhs

/-- What the node answers. -/
def answer (node : Node Nat) : Question → Answer
  | .minimum => .ofResult (node.reported .lowest)
  | .maximum => .ofResult (node.reported .highest)
  | question => Session.inspect node (question.about "")

end Question

/-- Whether the request is a question about a node. -/
def Request.isQuestion : Request → Bool
  | .ask _ .minimum | .ask _ .maximum | .size _ | .count _ | .isEmpty _ | .spelling _
  | .innerSpelling _ | .wraps _ | .tree _ | .select _ _ | .matches _ _ | .calculate _ _ => true
  | _ => false

namespace Session

open Node

variable {session later : Session}

/-- The answer is the node's, whatever else there is in the session. -/
theorem step_about (draws : Draws) (question : Question) {name : String} {node : Node Nat}
    (found : session.find name = .ok node) :
    (session.step draws (question.about name)).2 = question.answer node := by
  cases question with
  | minimum =>
      simp only [Question.about, step, withNode, found, Question.answer, Session.ask,
        ← (node.reply_measure session.heard draws .lowest session.position).1]
      rfl
  | maximum =>
      simp only [Question.about, step, withNode, found, Question.answer, Session.ask,
        ← (node.reply_measure session.heard draws .highest session.position).1]
      rfl
  | _ =>
      simp only [Question.about, step, withNode, found, Question.answer]
      rfl

theorem step_about_unknown (draws : Draws) (question : Question) {name : String} {fault : Fault}
    (unknown : session.find name = .error fault) :
    (session.step draws (question.about name)).2 = .refused fault := by
  cases question <;> simp only [Question.about, step, withNode, unknown]

/-- Where the same node has the name, or none has, the answers are the same. -/
theorem step_about_congr (draws : Draws) (question : Question) {name : String}
    (same : later.find name = session.find name) :
    (later.step draws (question.about name)).2
      = (session.step draws (question.about name)).2 := by
  cases found : session.find name with
  | ok node =>
      rw [step_about draws question found, step_about draws question (same.trans found)]
  | error fault =>
      rw [step_about_unknown draws question found,
        step_about_unknown draws question (same.trans found)]

/-! ### Nodes remain -/

theorem Serves.subset {given : Option String} {outcome : Session × Answer}
    (serves : session.Serves given outcome) : session.inhabitants ⊆ outcome.1.inhabitants := by
  unfold inhabitants
  cases serves with
  | refused refuses =>
      rw [refuses.nodes]
      exact List.Subset.refl _
  | answered nodes _ _ =>
      rw [nodes]
      exact List.Subset.refl _
  | named _ names _ =>
      rw [names.nodes, List.flatMap_cons]
      exact List.subset_append_right _ _

/-- A name keeps its node until it is given to another. -/
theorem Serves.find {given : Option String} {outcome : Session × Answer}
    (serves : session.Serves given outcome) {name : String} (kept : given ≠ some name) :
    outcome.1.find name = session.find name := by
  cases serves with
  | refused refuses => rw [Session.find, Session.find, refuses.nodes]
  | answered nodes _ _ => rw [Session.find, Session.find, nodes]
  | @named other _ _ _ gives names _ =>
      have different : (other == name) = false := by
        simpa [gives] using kept
      rw [Session.find, Session.find, names.nodes, List.find?_cons_of_neg (by simp [different])]

theorem inhabitants_subset_after (sound : session.Sound) (draws : Draws)
    (requests : List Request) :
    session.inhabitants ⊆ (session.after draws requests).inhabitants := by
  induction requests generalizing session with
  | nil => exact List.Subset.refl _
  | cons request rest ih =>
      exact List.Subset.trans (serves_step sound.checked draws request).subset
        (ih (sound.step draws request))

theorem find_after (sound : session.Sound) (draws : Draws) {requests : List Request}
    {name : String} (kept : ∀ request ∈ requests, request.given ≠ some name) :
    (session.after draws requests).find name = session.find name := by
  induction requests generalizing session with
  | nil => rfl
  | cons request rest ih =>
      obtain ⟨first, others⟩ := List.forall_mem_cons.mp kept
      exact (ih (sound.step draws request) others).trans
        ((serves_step sound.checked draws request).find first)

/-- A slot that held a node holds this node for ever. -/
theorem eq_of_same_slot (sound : session.Sound) (draws : Draws) (requests : List Request)
    {node other : Node Nat} (mem : node ∈ session.inhabitants)
    (otherMem : other ∈ (session.after draws requests).inhabitants)
    (same : node.slot = other.slot) : node = other :=
  (sound.after draws requests).apart node (inhabitants_subset_after sound draws requests mem)
    other otherMem same

/-! ### Questions change nothing -/

/-- A question changes nothing but the journal. -/
theorem alike_step_of_isQuestion (draws : Draws) {request : Request}
    (question : request.isQuestion = true) : (session.step draws request).1.Alike session := by
  cases request with
  | ask name measure =>
      simp only [step]
      refine withNode_cases (fun _ => .refl session) fun found _ => ?_
      cases measure with
      | roll => contradiction
      | minimum => exact ⟨rfl, rfl, (found.reply_measure session.heard draws .lowest _).2⟩
      | maximum => exact ⟨rfl, rfl, (found.reply_measure session.heard draws .highest _).2⟩
  | make | extend | nameInner | nameChild | follow | reports | reportCount | clear => contradiction
  | _ =>
      simp only [step]
      exact withNode_cases (fun _ => .refl session) fun _ _ => .refl session

end Session

/-- What is left of the request without what it says about following, if it is no question. -/
def Request.moving (request : Request) : Option Request :=
  if request.isQuestion then none else request.unmarked

theorem Request.filterMap_moving (requests : List Request) :
    requests.filterMap Request.moving
      = (requests.filter fun request => !request.isQuestion).filterMap Request.unmarked := by
  rw [List.filterMap_filter]
  congr 1
  funext request
  cases question : request.isQuestion <;> simp [Request.moving, question]

namespace Session

/-- Without the questions a run has the same results. -/
theorem resultsOf_moving (draws : Draws) (session : Session) (requests : List Request) :
    resultsOf Request.moving draws session requests
      = session.results draws (requests.filter fun request => !request.isQuestion) := by
  rw [results_eq_run draws (.refl session), ← Request.filterMap_moving]
  refine resultsOf_eq_run (fun request kept left => ?_) (fun request session left => ?_)
    (.refl session) requests
  · cases question : request.isQuestion <;> simp [Request.moving, question] at left
    exact left
  · cases question : request.isQuestion with
    | true => exact alike_step_of_isQuestion draws question
    | false =>
        rw [Request.moving, question, if_neg Bool.false_ne_true] at left
        exact alike_step_of_unmarked_eq_none (.refl session) draws left

/-- Questions take no draws. -/
theorem taken_of_isQuestion (draws : Draws) (session : Session) (requests : List Request) :
    ∀ replied ∈ requests.zip (session.run draws requests),
      replied.1.isQuestion = true → replied.2.2 = 0 := by
  induction requests generalizing session with
  | nil =>
      intro replied inNothing
      exact absurd inNothing List.not_mem_nil
  | cons request rest ih =>
      rw [run, List.zip_cons_cons, List.forall_mem_cons]
      refine ⟨fun question => ?_, ih _⟩
      rw [(alike_step_of_isQuestion draws question).position, Nat.sub_self]

/-- Nodes endure.  Whatever is asked of a session, and whatever is asked later on: a node of the
session is there later on, and in its slot there is no other.  So a question has the same
answer under every name of the node, and under the same name until that is given anew.
Questions themselves take no draws, and the results of a run are those of the run without
them. -/
theorem nodes_endure (draws : Draws) (requests more : List Request) :
    let session := empty.after draws requests
    let later := session.after draws more
    (session.inhabitants ⊆ later.inhabitants ∧
      ∀ node ∈ session.inhabitants, ∀ other ∈ later.inhabitants,
        node.slot = other.slot → node = other) ∧
    (∀ name other node found, session.find name = .ok node → later.find other = .ok found →
      node.slot = found.slot → ∀ question : Question,
        (later.step draws (question.about other)).2
          = (session.step draws (question.about name)).2) ∧
    (∀ name, (∀ request ∈ more, request.given ≠ some name) → ∀ question : Question,
      (later.step draws (question.about name)).2
        = (session.step draws (question.about name)).2) ∧
    resultsOf Request.moving draws session more
      = session.results draws (more.filter fun request => !request.isQuestion) ∧
    ∀ replied ∈ more.zip (session.run draws more),
      replied.1.isQuestion = true → replied.2.2 = 0 := by
  intro session later
  have sound : session.Sound := sound_empty.after draws requests
  refine ⟨⟨inhabitants_subset_after sound draws more, ?_⟩, ?_, ?_,
    resultsOf_moving draws session more, taken_of_isQuestion draws session more⟩
  · intro node mem other otherMem same
    exact eq_of_same_slot sound draws more mem otherMem same
  · intro name other node found known knownLater same question
    have equal : node = found :=
      eq_of_same_slot sound draws more (mem_inhabitants_of_find known)
        (mem_inhabitants_of_find knownLater) same
    rw [step_about draws question knownLater, step_about draws question known, equal]
  · intro name kept question
    exact step_about_congr draws question (find_after sound draws kept)

/-- A pool is put into a selection, rolled, followed and found again under another name, while
its own name goes to a die. -/
theorem kept_pool_endures :
    let draws : Draws := .cycle #[4, 2, 5]
    let requests : List Request :=
      [.make "die" true (.sided 6), .make "pool" false (.repeated "die" 2)]
    let more : List Request :=
      [.make "kept" true (.selection "pool" ['k', 'h'] 1), .ask "pool" .maximum,
        .nameInner "found" "kept", .follow "found" true, .make "pool" false .fudge,
        .tree "found", .ask "found" .roll]
    let session := empty.after draws requests
    let later := session.after draws more
    (∀ question : Question, (later.step draws (question.about "found")).2
        = (session.step draws (question.about "pool")).2) ∧
      (∀ question : Question, (later.step draws (question.about "die")).2
        = (session.step draws (question.about "die")).2) ∧
      resultsOf Request.moving draws session more
        = session.results draws
          [.make "kept" true (.selection "pool" ['k', 'h'] 1), .nameInner "found" "kept",
            .follow "found" true, .make "pool" false .fudge, .ask "found" .roll] := by
  intro draws requests more session later
  let pool : Node Nat := .pool 2 [.die 0 (.sided 6), .die 1 (.sided 6)]
  have known : session.find "pool" = .ok pool := by with_unfolding_all rfl
  have knownLater : later.find "found" = .ok pool := by with_unfolding_all rfl
  obtain ⟨-, found, kept, results, -⟩ := nodes_endure draws requests more
  exact ⟨found "pool" "found" pool pool known knownLater rfl, kept "die" (by decide), results⟩

end Session

end DicePool
