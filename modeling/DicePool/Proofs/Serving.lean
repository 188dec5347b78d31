/-
Module: DicePool.Proofs.Serving
Purpose: The parts of a session that a request changes, and when it draws.
Main exports: Session.withNode_cases, Session.position_step
-/
import DicePool.Proofs.Listening
import DicePool.Session

/-!
A request makes nodes, asks one, or says who is followed.  Each of the operations behind that
changes a few parts of the session and leaves the others as they are, and what it leaves can be
read off without looking into the nodes: the position in the stream is only moved on by a roll
(`Session.position_step`).
-/

namespace DicePool

namespace Session

variable {α : Type}

@[simp] theorem record_marks (session : Session) (entries : List (Entry α)) :
    (session.record entries).marks = session.marks := rfl

@[simp] theorem record_position (session : Session) (entries : List (Entry α)) :
    (session.record entries).position = session.position := rfl

@[simp] theorem record_journal (session : Session) (entries : List (Entry α)) :
    (session.record entries).journal = session.journal ++ entries.map Entry.report := rfl

@[simp] theorem withSlots_position (session : Session) (count : Nat) (mark : Bool) :
    (session.withSlots count mark).position = session.position := rfl

@[simp] theorem withSlots_journal (session : Session) (count : Nat) (mark : Bool) :
    (session.withSlots count mark).journal = session.journal := rfl

@[simp] theorem size_withSlots (session : Session) (count : Nat) (mark : Bool) :
    (session.withSlots count mark).marks.size = session.marks.size + count := by
  simp [withSlots]

/-- A name is either unknown, which is reported, or there is a node to go on with. -/
@[elab_as_elim]
theorem withNode_cases {motive : Session × Answer → Prop} {session : Session} {name : String}
    {next : Node Nat → Session × Answer} (refused : ∀ fault, motive (session, .refused fault))
    (known : ∀ node, session.find name = .ok node → motive (next node)) :
    motive (session.withNode name next) := by
  unfold withNode
  split
  · exact refused _
  · next node found => exact known node found

theorem position_placeNew (session : Session) (name : String) (mark : Bool)
    (made : Except Fault (Node Nat)) :
    (session.placeNew name mark made).1.position = session.position := by
  cases made <;> rfl

theorem position_make (session : Session) (name : String) (mark : Bool) (recipe : Recipe) :
    (session.make name mark recipe).1.position = session.position := by
  cases recipe with
  | repeated item quantity =>
      simp only [make, makeRepeated]
      split
      · rfl
      · rfl
      · rw [position_placeNew, withSlots_position]
  | explosion inner comparison threshold limit =>
      simp only [make, makeExplosion]
      split
      · rfl
      · rw [position_placeNew, record_position]
  | expression text defaultFace limit =>
      simp only [make, makeExpression]
      split <;> rfl
  | _ => exact position_placeNew _ _ _ _

/-- Only a node that is asked for a roll takes draws. -/
theorem position_step (draws : Draws) (session : Session) {request : Request}
    (noRoll : ∀ name, request ≠ .ask name .roll) :
    (session.step draws request).1.position = session.position := by
  cases request with
  | make name mark recipe => exact position_make session name mark recipe
  | extend name pool items =>
      simp only [step, extend]
      split
      · rfl
      · exact position_placeNew _ _ _ _
      · rfl
  | nameInner name node =>
      simp only [step]
      refine withNode_cases (fun _ => rfl) fun found _ => ?_
      split <;> rfl
  | nameChild name node index =>
      simp only [step]
      refine withNode_cases (fun _ => rfl) fun found _ => ?_
      split <;> rfl
  | ask node measure =>
      simp only [step]
      refine withNode_cases (fun _ => rfl) fun found _ => ?_
      cases measure with
      | roll => exact absurd rfl (noRoll node)
      | minimum => exact (found.reply_measure session.heard draws .lowest session.position).2
      | maximum => exact (found.reply_measure session.heard draws .highest session.position).2
  | reports | reportCount | clear => rfl
  | _ =>
      simp only [step]
      exact withNode_cases (fun _ => rfl) fun _ _ => rfl

end Session

end DicePool
