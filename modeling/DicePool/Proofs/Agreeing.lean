/-
Module: DicePool.Proofs.Agreeing
Purpose: Sessions that differ only in who is followed answer alike.
Main exports: Request.unmarked, Session.Alike, Session.step_alike, Session.Alike.step_loud,
  Session.after, Session.results, Session.resultsOf_eq_run, Session.results_eq_run
-/
import DicePool.Proofs.Housing

/-!
Two sessions are alike if they differ in nothing but marks and journals.  They remain so, with
the same answers, when they are asked the same, whoever is told to be followed in them and
whenever: `Session.step_alike`.

What is asked apart from following is what is left of the requests (`Request.unmarked`), and
the results of a run are those of what is left: `Session.results_eq_run`.
-/

namespace DicePool

/-- The request without what it says about following. Of some requests nothing is left. -/
def Request.unmarked : Request → Option Request
  | .make name _ recipe => some (.make name false recipe)
  | .follow _ _ | .reports | .reportCount | .clear => none
  | request => some request

theorem Request.unmarked_loud (request : Request) : request.loud.unmarked = request.unmarked := by
  cases request <;> rfl

theorem Request.loud_ne_clear {request : Request} (kept : request ≠ .clear) :
    request.loud ≠ .clear := by
  cases request with
  | clear => exact absurd rfl kept
  | _ => nofun

namespace Session

open Node

/-! ### Sessions that are alike -/

/-- The sessions may differ in their marks and journals only. -/
structure Alike (one two : Session) : Prop where
  nodes : one.nodes = two.nodes
  slots : one.marks.size = two.marks.size
  position : one.position = two.position

/-- What comes of a request is alike. -/
def AlikeOutcomes (one two : Session × Answer) : Prop :=
  one.1.Alike two.1 ∧ one.2 = two.2

theorem Alike.refl (session : Session) : session.Alike session :=
  ⟨rfl, rfl, rfl⟩

theorem Alike.trans {one two three : Session} (first : one.Alike two) (second : two.Alike three) :
    one.Alike three :=
  ⟨first.nodes.trans second.nodes, first.slots.trans second.slots,
    first.position.trans second.position⟩

theorem Alike.symm {one two : Session} (alike : one.Alike two) : two.Alike one :=
  ⟨alike.nodes.symm, alike.slots.symm, alike.position.symm⟩

section

variable {one two : Session} (alike : one.Alike two)

include alike

namespace Alike

theorem find (name : String) : one.find name = two.find name := by
  rw [Session.find, Session.find, alike.nodes]

theorem findAll (names : List String) : one.findAll names = two.findAll names := by
  have each : one.find = two.find := funext alike.find
  rw [Session.findAll, Session.findAll, each]

theorem freshSlot : one.freshSlot = two.freshSlot :=
  alike.slots

theorem record {α β : Type} (entries : List (Entry α)) (others : List (Entry β)) :
    (one.record entries).Alike (two.record others) :=
  ⟨alike.nodes, alike.slots, alike.position⟩

theorem withSlots (count : Nat) (mark other : Bool) :
    (one.withSlots count mark).Alike (two.withSlots count other) :=
  ⟨alike.nodes, by simp [alike.slots], alike.position⟩

theorem place (name : String) (node : Node Nat) :
    AlikeOutcomes (one.place name node) (two.place name node) := by
  have nodes : (name, node) :: one.nodes = (name, node) :: two.nodes := by rw [alike.nodes]
  exact ⟨⟨nodes, alike.slots, alike.position⟩, rfl⟩

theorem refused (fault : Fault) : AlikeOutcomes (one, .refused fault) (two, .refused fault) :=
  ⟨alike, rfl⟩

theorem placeNew (name : String) (mark other : Bool) (made : Except Fault (Node Nat)) :
    AlikeOutcomes (one.placeNew name mark made) (two.placeNew name other made) := by
  cases made with
  | error fault => exact alike.refused fault
  | ok node => exact (alike.withSlots 1 mark other).place name node

theorem makeRepeated (name : String) (mark other : Bool) (item : String) (quantity : Int) :
    AlikeOutcomes (one.makeRepeated name mark item quantity)
      (two.makeRepeated name other item quantity) := by
  unfold Session.makeRepeated
  rw [alike.find item, alike.freshSlot]
  split
  · exact alike.refused _
  · exact alike.refused _
  · next node count _ _ =>
      have grown := alike.withSlots ((if node.isEmptyPool then 1 else count) - 1)
        (one.heard node.slot) (two.heard node.slot)
      simp only [grown.freshSlot]
      exact grown.placeNew name mark other _

theorem makeExplosion (name : String) (mark other : Bool) (inner : String) (comparison : Text)
    (threshold limit : Int) :
    AlikeOutcomes (one.makeExplosion name mark inner comparison threshold limit)
      (two.makeExplosion name other inner comparison threshold limit) := by
  unfold Session.makeExplosion
  rw [alike.find inner, alike.freshSlot]
  split
  · exact alike.refused _
  · simp only [explosion?_eq_restrict one.heard, explosion?_eq_restrict two.heard, alike.position]
    exact (alike.record _ _).placeNew name mark other _

theorem makeExpression (name : String) (mark other : Bool) (text : Text)
    (defaultFace : Option Text) (limit : Int) :
    AlikeOutcomes (one.makeExpression name mark text defaultFace limit)
      (two.makeExpression name other text defaultFace limit) := by
  have same : (Workshop.build ⟨defaultFace, limit, mark⟩ text).result
      = (Workshop.build ⟨defaultFace, limit, other⟩ text).result :=
    Workshop.result_build_marking ⟨defaultFace, limit, true⟩ mark other text
  simp only [Session.makeExpression, same]
  split
  · exact ⟨alike.record _ _, rfl⟩
  · have fresh := (alike.record (Workshop.build ⟨defaultFace, limit, mark⟩ text).entries
      (Workshop.build ⟨defaultFace, limit, other⟩ text).entries).freshSlot
    rw [fresh]
    exact ((alike.record _ _).withSlots _ mark other).place name _

theorem make (name : String) (mark other : Bool) (recipe : Recipe) :
    AlikeOutcomes (one.make name mark recipe) (two.make name other recipe) := by
  have fresh := alike.freshSlot
  cases recipe with
  | repeated item quantity => exact alike.makeRepeated name mark other item quantity
  | explosion inner comparison threshold limit =>
      exact alike.makeExplosion name mark other inner comparison threshold limit
  | expression text defaultFace limit =>
      exact alike.makeExpression name mark other text defaultFace limit
  | _ =>
      simp only [Session.make, fresh, alike.find, alike.findAll]
      exact alike.placeNew name mark other _

theorem extend (name pool : String) (items : List String) :
    AlikeOutcomes (one.extend name pool items) (two.extend name pool items) := by
  unfold Session.extend
  rw [alike.find pool, alike.findAll items, alike.freshSlot]
  split
  · exact alike.refused _
  · exact alike.placeNew name _ _ _
  · exact alike.refused _

theorem withNode {name : String} {next later : Node Nat → Session × Answer}
    (each : ∀ node, AlikeOutcomes (next node) (later node)) :
    AlikeOutcomes (one.withNode name next) (two.withNode name later) := by
  unfold Session.withNode
  rw [alike.find name]
  split
  · exact alike.refused _
  · exact each _

theorem ask (draws : Draws) (node : Node Nat) (measure : Measure) :
    AlikeOutcomes (Session.ask draws one node measure) (Session.ask draws two node measure) := by
  simp only [Session.ask, reply_eq_restrict one.heard, reply_eq_restrict two.heard, alike.position]
  exact ⟨⟨alike.nodes, alike.slots, rfl⟩, rfl⟩

end Alike

/-- Alike sessions answer a request as they answer what is left of it without following. -/
theorem step_alike (draws : Draws) {request kept : Request}
    (left : request.unmarked = some kept) :
    AlikeOutcomes (one.step draws request) (two.step draws kept) := by
  cases request with
  | make name mark recipe =>
      cases left
      exact alike.make name mark false recipe
  | extend name pool items =>
      cases left
      exact alike.extend name pool items
  | nameInner name node =>
      cases left
      refine alike.withNode fun found => ?_
      split
      · exact alike.place name _
      · exact alike.refused _
  | nameChild name node index =>
      cases left
      refine alike.withNode fun found => ?_
      split
      · exact alike.place name _
      · exact alike.refused _
  | ask node measure =>
      cases left
      exact alike.withNode fun found => alike.ask draws found measure
  | follow | reports | reportCount | clear => contradiction
  | _ =>
      cases left
      exact alike.withNode fun found => ⟨alike, rfl⟩

/-- A request of which nothing is left changes nothing but marks and the journal. -/
theorem alike_step_of_unmarked_eq_none (draws : Draws) {request : Request}
    (nothing : request.unmarked = none) : (one.step draws request).1.Alike two := by
  cases request with
  | follow node mark =>
      simp only [step, Session.withNode]
      split
      · exact alike
      · exact ⟨alike.nodes, by simp [alike.slots], alike.position⟩
  | reports => exact alike
  | reportCount => exact alike
  | clear => exact ⟨alike.nodes, alike.slots, alike.position⟩
  | _ => contradiction

/-- Requests that are made loud leave the sessions alike. -/
theorem Alike.step_loud (draws : Draws) (request : Request) :
    (one.step draws request).1.Alike (two.step draws request.loud).1 := by
  cases left : request.unmarked with
  | some kept =>
      have loudLeft : request.loud.unmarked = some kept := by
        rw [Request.unmarked_loud, left]
      exact (step_alike alike draws left).1.trans
        (step_alike (Alike.refl two) draws loudLeft).1.symm
  | none =>
      have loudLeft : request.loud.unmarked = none := by
        rw [Request.unmarked_loud, left]
      exact (alike_step_of_unmarked_eq_none alike draws left).trans
        (alike_step_of_unmarked_eq_none (Alike.refl two) draws loudLeft).symm

end

/-- The session after the requests. -/
def after (draws : Draws) (session : Session) (requests : List Request) : Session :=
  requests.foldl (fun session request => (session.step draws request).1) session

/-- What the requests are answered with and how many draws they take, apart from those that are
only about following and about the journal. -/
def results (draws : Draws) (session : Session) (requests : List Request) : List (Answer × Nat) :=
  ((requests.zip (session.run draws requests)).filter fun (request, _) =>
    request.unmarked.isSome).map Prod.snd

/-- What those requests are answered with of which something is left, and how many draws they
take. -/
def resultsOf (left : Request → Option Request) (draws : Draws) (session : Session)
    (requests : List Request) : List (Answer × Nat) :=
  ((requests.zip (session.run draws requests)).filter fun (request, _) =>
    (left request).isSome).map Prod.snd

/-- The results are those of what is left, if it leaves out nothing but following and requests
that leave the session alike. -/
theorem resultsOf_eq_run {left : Request → Option Request} {draws : Draws}
    (keeps : ∀ request kept, left request = some kept → request.unmarked = some kept)
    (drops : ∀ request (session : Session), left request = none →
      (session.step draws request).1.Alike session)
    {one two : Session} (alike : one.Alike two) (requests : List Request) :
    resultsOf left draws one requests = two.run draws (requests.filterMap left) := by
  induction requests generalizing one two with
  | nil => rfl
  | cons request rest ih =>
      cases same : left request with
      | none =>
          have later := ih ((drops request one same).trans alike)
          simpa [resultsOf, run, same] using later
      | some kept =>
          obtain ⟨next, answer⟩ := step_alike alike draws (keeps request kept same)
          have later := ih next
          simp only [resultsOf] at later
          simp [resultsOf, run, same, answer, next.position, alike.position, later]

/-- The results are those of what is left of the requests without following. -/
theorem results_eq_run (draws : Draws) {one two : Session} (alike : one.Alike two)
    (requests : List Request) :
    one.results draws requests = two.run draws (requests.filterMap Request.unmarked) :=
  resultsOf_eq_run (fun _ _ => id)
    (fun _ session => alike_step_of_unmarked_eq_none (.refl session) draws) alike requests

end Session

end DicePool
