/-
Module: DicePool.Proofs.Recording
Purpose: The journal has the steps that were followed when they were made, and no others.
Main exports: Session.steps, Session.followed, Session.journal_step, Session.trail,
  Session.journal_after, Session.records_exactly_what_is_followed
-/
import DicePool.Proofs.Agreeing

/-!
Each request gives rise to steps, whoever listens, and a step is recorded if its node is
followed at that time: `Session.journal_step`.  The trail of a run is the list of all its steps,
each with that mark, from when the journal was last cleared.

If every node is followed all the time, the whole trail is recorded (`followed_trail_loud`).
So the journal of any run is a part of what would be recorded then, and exactly the part that
was followed: `Session.records_exactly_what_is_followed`.
-/

namespace DicePool.Session

open Node

/-- The steps of a question in the session, each with whether its node is followed. -/
def tagged (session : Session) (entries : List (Entry Nat)) : List (Bool × Report) :=
  entries.map fun entry => (session.heard entry.node.slot, entry.report)

/-- The steps to which a request gives rise, whoever listens, each with whether its node is
followed at that time. -/
def steps (draws : Draws) (session : Session) : Request → List (Bool × Report)
  | .ask name measure =>
      match session.find name with
      | .ok node => session.tagged (node.reply everySlot draws measure session.position).entries
      | .error _ => []
  | .make _ _ (.explosion inner comparison threshold limit) =>
      match session.find inner with
      | .ok node =>
          session.tagged
            ((node.explosion? (.memory everySlot) session.freshSlot comparison threshold
              limit).remembered session.position).entries
      | .error _ => []
  | .make _ mark (.expression text defaultFace limit) =>
      (Workshop.build ⟨defaultFace, limit, true⟩ text).entries.map fun entry =>
        (mark, entry.report)
  | _ => []

/-- The reports of the steps that are followed. -/
def followed (steps : List (Bool × Report)) : List Report :=
  (steps.filter Prod.fst).map Prod.snd

/-- The reports of all steps. -/
def everyStep (steps : List (Bool × Report)) : List Report :=
  steps.map Prod.snd

theorem everyStep_append (steps later : List (Bool × Report)) :
    everyStep (steps ++ later) = everyStep steps ++ everyStep later :=
  List.map_append

theorem followed_append (steps later : List (Bool × Report)) :
    followed (steps ++ later) = followed steps ++ followed later := by
  simp [followed]

theorem followed_map {α : Type} (heard : α → Bool) (entries : List (Entry α)) :
    followed (entries.map fun entry => (heard entry.node.slot, entry.report))
      = (heardOf heard entries).map Entry.report := by
  rw [followed, heardOf, List.filter_map, List.map_map]
  rfl

theorem journal_placeNew (session : Session) (name : String) (mark : Bool)
    (made : Except Fault (Node Nat)) :
    (session.placeNew name mark made).1.journal = session.journal := by
  cases made <;> rfl

theorem journal_makeRepeated (session : Session) (name : String) (mark : Bool) (item : String)
    (quantity : Int) :
    (session.makeRepeated name mark item quantity).1.journal = session.journal := by
  unfold makeRepeated
  split
  · rfl
  · rfl
  · rw [journal_placeNew, withSlots_journal]

theorem journal_makeExplosion (draws : Draws) (session : Session) (name : String) (mark : Bool)
    (inner : String) (comparison : Text) (threshold limit : Int) :
    (session.makeExplosion name mark inner comparison threshold limit).1.journal
      = session.journal ++ followed
          (session.steps draws
            (.make name mark (.explosion inner comparison threshold limit))) := by
  simp only [makeExplosion, steps]
  cases session.find inner with
  | error fault => exact (List.append_nil _).symm
  | ok node =>
      simp only [journal_placeNew, record_journal, explosion?_eq_restrict session.heard,
        Outcome.restrict, tagged, followed_map]

theorem journal_makeExpression (draws : Draws) (session : Session) (name : String) (mark : Bool)
    (text : Text) (defaultFace : Option Text) (limit : Int) :
    (session.makeExpression name mark text defaultFace limit).1.journal
      = session.journal ++ followed
          (session.steps draws (.make name mark (.expression text defaultFace limit))) := by
  have heard : (Workshop.build ⟨defaultFace, limit, mark⟩ text).entries
      = heardOf (fun _ => mark) (Workshop.build ⟨defaultFace, limit, true⟩ text).entries :=
    congrArg Assembly.entries (Workshop.build_eq_restrict ⟨defaultFace, limit, true⟩ mark text)
  simp only [steps, followed_map fun _ => mark, ← heard, makeExpression]
  split <;> rfl

/-- Unless it is cleared, the journal gains the steps that are followed. -/
theorem journal_step (draws : Draws) (session : Session) {request : Request}
    (kept : request ≠ .clear) :
    (session.step draws request).1.journal
      = session.journal ++ followed (session.steps draws request) := by
  -- Most requests give rise to no steps at all.
  have quiet : session.journal ++ followed [] = session.journal := List.append_nil _
  cases request with
  | make name mark recipe =>
      cases recipe with
      | explosion inner comparison threshold limit =>
          exact journal_makeExplosion draws session name mark inner comparison threshold limit
      | expression text defaultFace limit =>
          exact journal_makeExpression draws session name mark text defaultFace limit
      | repeated item quantity =>
          exact (journal_makeRepeated session name mark item quantity).trans quiet.symm
      | _ => exact (journal_placeNew _ _ _ _).trans quiet.symm
  | extend name pool items =>
      refine Eq.trans ?_ quiet.symm
      simp only [step, extend]
      split
      · rfl
      · exact journal_placeNew _ _ _ _
      · rfl
  | nameInner name node =>
      refine Eq.trans ?_ quiet.symm
      simp only [step]
      refine withNode_cases (fun _ => rfl) fun found _ => ?_
      split <;> rfl
  | nameChild name node index =>
      refine Eq.trans ?_ quiet.symm
      simp only [step]
      refine withNode_cases (fun _ => rfl) fun found _ => ?_
      split <;> rfl
  | ask node measure =>
      simp only [step, withNode, steps]
      cases session.find node with
      | error fault => exact quiet.symm
      | ok found =>
          simp only [ask, record_journal, reply_eq_restrict session.heard, Outcome.restrict,
            tagged, followed_map]
  | reports | reportCount => exact quiet.symm
  | clear => exact absurd rfl kept
  | _ =>
      refine Eq.trans ?_ quiet.symm
      simp only [step]
      exact withNode_cases (fun _ => rfl) fun _ _ => rfl

/-- The steps since the journal was last cleared, where `earlier` are those up to the request. -/
def gain (draws : Draws) (session : Session) (earlier : List (Bool × Report)) :
    Request → List (Bool × Report)
  | .clear => []
  | request => earlier ++ session.steps draws request

theorem gain_of_ne (draws : Draws) (session : Session) (earlier : List (Bool × Report))
    {request : Request} (kept : request ≠ .clear) :
    session.gain draws earlier request = earlier ++ session.steps draws request := by
  cases request with
  | clear => exact absurd rfl kept
  | _ => rfl

/-- The steps since the journal was last cleared, at the end of the requests. -/
def trail (draws : Draws) (session : Session) (earlier : List (Bool × Report)) :
    List Request → List (Bool × Report)
  | [] => earlier
  | request :: rest =>
      trail draws (session.step draws request).1 (session.gain draws earlier request) rest

/-- The journal goes on to have the steps that were followed when they were made. -/
theorem journal_gain (draws : Draws) {session : Session} {earlier : List (Bool × Report)}
    (recorded : session.journal = followed earlier) (request : Request) :
    (session.step draws request).1.journal
      = followed (session.gain draws earlier request) := by
  by_cases cleared : request = .clear
  · subst cleared
    rfl
  · rw [journal_step draws session cleared, gain_of_ne draws session earlier cleared, recorded,
      followed_append]

theorem journal_after (draws : Draws) (requests : List Request) {session : Session}
    {earlier : List (Bool × Report)} (recorded : session.journal = followed earlier) :
    (session.after draws requests).journal
      = followed (session.trail draws earlier requests) := by
  induction requests generalizing session earlier with
  | nil => exact recorded
  | cons request rest ih => exact ih (journal_gain draws recorded request)

/-! ### Following everything -/

/-- Where everything is followed, so is every step. -/
theorem Loud.fst_of_mem_steps {session : Session} (loud : session.Loud) (draws : Draws)
    (request : Request) :
    ∀ step ∈ session.steps draws request.loud, step.1 = true := by
  have tagged : ∀ {node : Node Nat} {entries : List (Entry Nat)},
      node.SlotsBelow session.marks.size → (∀ entry ∈ entries, entry.node ∈ node.subtrees) →
        ∀ step ∈ session.tagged entries, step.1 = true := by
    intro node entries below inTree step mem
    obtain ⟨entry, entryMem, rfl⟩ := List.mem_map.mp mem
    exact loud.followed below _ (inTree entry entryMem)
  cases request with
  | ask name measure =>
      simp only [Request.loud, steps]
      cases found : session.find name with
      | error fault => exact List.forall_mem_nil _
      | ok node =>
          exact tagged (loud.slotsBelow_of_find found) fun _ => node_mem_subtrees_of_mem_reply
  | make name mark recipe =>
      cases recipe with
      | explosion inner comparison threshold limit =>
          simp only [Request.loud, steps]
          cases found : session.find inner with
          | error fault => exact List.forall_mem_nil _
          | ok node =>
              exact tagged (loud.slotsBelow_of_find found) fun _ =>
                node_mem_subtrees_of_mem_explosion?
      | expression text defaultFace limit =>
          intro step mem
          obtain ⟨entry, -, rfl⟩ := List.mem_map.mp mem
          rfl
      | _ => exact List.forall_mem_nil _
  | _ => exact List.forall_mem_nil _

/-- Alike sessions take the same steps, whoever is followed. -/
theorem Alike.everyStep_steps {one two : Session} (alike : one.Alike two) (draws : Draws)
    (request : Request) :
    everyStep (one.steps draws request) = everyStep (two.steps draws request.loud) := by
  have reports : ∀ (session : Session) (entries : List (Entry Nat)),
      everyStep (session.tagged entries) = entries.map Entry.report := by
    intro session entries
    rw [everyStep, tagged, List.map_map]
    rfl
  cases request with
  | ask name measure =>
      simp only [Request.loud, steps, alike.find name, alike.position]
      split
      · rw [reports, reports]
      · rfl
  | make name mark recipe =>
      cases recipe with
      | explosion inner comparison threshold limit =>
          simp only [Request.loud, steps, alike.find inner, alike.freshSlot, alike.position]
          split
          · rw [reports, reports]
          · rfl
      | expression text defaultFace limit => simp [Request.loud, steps, everyStep]
      | _ => rfl
  | _ => rfl

theorem followed_of_forall {steps : List (Bool × Report)} (all : ∀ step ∈ steps, step.1 = true) :
    followed steps = everyStep steps := by
  rw [followed, everyStep, List.filter_eq_self.mpr all]

/-- Where everything is followed, the steps of the same requests are the same and all of them
are followed. -/
theorem followed_trail_loud (draws : Draws) (requests : List Request) {one two : Session}
    (alike : one.Alike two) (loud : two.Loud) {earlier before : List (Bool × Report)}
    (same : everyStep earlier = everyStep before) (all : ∀ step ∈ before, step.1 = true) :
    followed (two.trail draws before (requests.map Request.loud))
      = everyStep (one.trail draws earlier requests) := by
  induction requests generalizing one two earlier before with
  | nil => exact (followed_of_forall all).trans same.symm
  | cons request rest ih =>
      by_cases cleared : request = .clear
      · subst cleared
        exact ih (alike.step_loud draws .clear) (loud.step draws .clear) rfl nofun
      · have more := gain_of_ne draws one earlier cleared
        have moreLoud := gain_of_ne draws two before (Request.loud_ne_clear cleared)
        refine ih (alike.step_loud draws request) (loud.step draws request) ?_ ?_
        · rw [more, moreLoud, everyStep_append, everyStep_append, same,
            alike.everyStep_steps draws request]
        · rw [moreLoud]
          exact List.forall_mem_append.mpr ⟨all, loud.fst_of_mem_steps draws request⟩

/-- Results and draws do not depend on who is followed, and from when on.  The journal has
exactly those steps, in their order, that were followed when they were made, out of the steps
that it would have if everything were followed all the time. -/
theorem records_exactly_what_is_followed (draws : Draws) {requests others : List Request}
    (same : requests.filterMap Request.unmarked = others.filterMap Request.unmarked) :
    empty.results draws requests = empty.results draws others ∧
      (empty.after draws requests).journal = followed (empty.trail draws [] requests) ∧
      (empty.after draws (requests.map Request.loud)).journal
        = everyStep (empty.trail draws [] requests) := by
  refine ⟨?_, journal_after draws requests rfl, ?_⟩
  · rw [results_eq_run draws (.refl empty), results_eq_run draws (.refl empty), same]
  · exact (journal_after draws (requests.map Request.loud) rfl).trans
      (followed_trail_loud draws requests (.refl empty) loud_empty rfl nofun)

/-- Two dice of which the second is a copy, and an explosion of them: in one run only the first
die is followed, until it is not, and in the other one the pool and the copy are. -/
theorem copied_dice_record_what_is_followed :
    let explosion : Recipe := .explosion "pool" ['>'] 3 1
    let requests : List Request :=
      [.make "die" true (.sided 4), .make "pool" false (.repeated "die" 2),
        .nameChild "copy" "pool" 1, .follow "copy" false, .make "explosion" false explosion,
        .ask "explosion" .roll, .follow "die" false, .ask "pool" .minimum]
    let others : List Request :=
      [.make "die" false (.sided 4), .make "pool" true (.repeated "die" 2),
        .nameChild "copy" "pool" 1, .make "explosion" true explosion, .reports,
        .follow "copy" true, .ask "explosion" .roll, .ask "pool" .minimum]
    let draws : Draws := .cycle #[3, 1]
    requests.filterMap Request.unmarked = others.filterMap Request.unmarked ∧
      empty.results draws requests = empty.results draws others ∧
      (empty.after draws requests).journal = followed (empty.trail draws [] requests) ∧
      (empty.after draws (requests.map Request.loud)).journal
        = everyStep (empty.trail draws [] requests) := by
  intro explosion requests others draws
  have same : requests.filterMap Request.unmarked = others.filterMap Request.unmarked := rfl
  exact ⟨same, records_exactly_what_is_followed draws same⟩

end DicePool.Session
