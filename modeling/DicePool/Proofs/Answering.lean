/-
Module: DicePool.Proofs.Answering
Purpose: What the command line makes of one expression: its line, or the fault that ends it.
Main exports: Workshop.logs, Workshop.refuses, Node.rollTimes, Node.shown, Command.Answers,
  Command.Ends, Command.tell_cases, Command.Ends.fault_eq
-/
import DicePool.Command
import DicePool.Proofs.Refusing
import DicePool.Proofs.Relaying

/-!
An expression is answered by a line: by the fault for which it is refused, or by its rolls and
bounds (`Command.Answers`).  Or the command ends with it (`Command.Ends`), mostly for a number that
is too long to be read or written.  One of the two is the case, and there is one line and one
fault.

Neither depends on whether the steps are logged, but for one reason.  A log writes the node of a
step at once, and a text may be refused after a node was asked for something that cannot be
written.  In a text that is accepted there is no such node: `Workshop.logs_of_build`.
-/

namespace DicePool

/-! ### Steps in the log -/

namespace Command

/-- The log writes the node of each step, and only that can fail. -/
theorem logAll_fst (heard : Bool) (log : Array String) (entries : List (Entry Unit)) :
    (logAll heard log entries).1
      = if heard && !(entries.all fun entry => entry.node.isWritable) then some .numberTooLong
        else none := by
  induction entries generalizing log with
  | nil => simp [logAll]
  | cons entry rest ih =>
      cases heard <;> cases writable : entry.node.isWritable <;>
        simp [logAll, logging, writable, ih]

theorem all_isWritable_of_foldlM {entries : List (Entry Unit)} {log last : Array String}
    (told : entries.foldlM (logging true) log = .ok last) :
    (entries.all fun entry => entry.node.isWritable) = true := by
  induction entries generalizing log with
  | nil => rfl
  | cons entry rest ih =>
      rw [List.foldlM_cons] at told
      obtain ⟨between, heard, told⟩ := except_bind_eq_ok.mp told
      rw [List.all_cons, ih told, Bool.and_true]
      cases writable : entry.node.isWritable with
      | true => rfl
      | false => simp [logging, writable] at heard

/-- A node that can be written has steps that are logged. -/
theorem acceptedBy_logging (heard : Bool) {node : Node Unit} (writable : node.isWritable = true) :
    node.AcceptedBy (logging heard) := by
  intro measure line result log
  cases heard <;> simp [logging, writable]

end Command

namespace Workshop

variable {shop : Workshop} {text : Text}

/-- Whether the nodes that are asked for something while the text is built can all be written, if
they are followed. -/
def logs (shop : Workshop) (text : Text) : Bool :=
  (shop.build text).entries.all fun entry => entry.node.isWritable

theorem logAll_eq (shop : Workshop) (text : Text) (log : Array String) :
    (Command.logAll shop.heard log (shop.build text).entries).1
      = if shop.logs text then none else some .numberTooLong := by
  rw [Command.logAll_fst, logs]
  cases followed : shop.heard with
  | true => cases (shop.build text).entries.all fun entry => entry.node.isWritable <;> rfl
  | false =>
      have same := build_eq_restrict shop false text
      rw [marking, ← followed] at same
      have silent : (shop.build text).entries = [] := by
        rw [same, Assembly.restrict, heardOf, followed]
        simp
      rw [silent]
      rfl

/-- If all steps are logged where they are followed, so they are where they need not be. -/
theorem logs_marking (logged : (shop.marking true).logs text = true) (mark : Bool) :
    (shop.marking mark).logs text = true := by
  rw [logs, List.all_eq_true] at logged ⊢
  intro entry mem
  rw [build_eq_restrict] at mem
  exact logged entry (List.mem_filter.mp mem).1

/-- While a text is built that is accepted, all steps can be logged. -/
theorem logs_of_build {node : Node Unit} (built : (shop.build text).result = .ok node) :
    shop.logs text = true := by
  have same : ((shop.marking true).build text).result = .ok node :=
    (shop.result_build_marking true shop.heard text).trans built
  obtain ⟨-, -, -, writable⟩ := shop.build_eq_ok.mp built
  have accepted : ∀ sub ∈ node.subtrees, sub.AcceptedBy (Command.logging true) := fun sub mem =>
    Command.acceptedBy_logging true (Node.isWritable_of_mem_subtrees writable sub mem)
  obtain ⟨last, told, -⟩ := relays_build same accepted #[]
  exact logs_marking (Command.all_isWritable_of_foldlM told) shop.heard

/-- Whether a text is refused with a named fault. -/
def refuses (shop : Workshop) (text : Text) : Bool :=
  match (shop.build text).result with
  | .ok _ => false
  | .error fault => fault.kind.isNamed && shop.logs text

theorem refuses_of_error {fault : Fault} (made : (shop.build text).result = .error fault) :
    shop.refuses text = (fault.kind.isNamed && shop.logs text) := by
  rw [refuses, made]

theorem not_refuses_of_ok {node : Node Unit} (made : (shop.build text).result = .ok node) :
    shop.refuses text = false := by
  rw [refuses, made]

theorem refuses_marking (logged : (shop.marking true).logs text = true) :
    (shop.marking true).refuses text = shop.refuses text := by
  have noted : shop.logs text = true := logs_marking logged shop.heard
  rw [refuses, refuses, shop.result_build_marking true shop.heard text, logged, noted]
  rfl

end Workshop

/-! ### Rolls and bounds -/

namespace Command

theorem writeAll_eq (numbers : List Int) :
    writeAll numbers
      = if numbers.all Numeral.isWritable then .ok (numbers.map Numeral.ofInt)
        else .error .numberTooLong := by
  have numerals : numbers.mapM Numeral.write?
      = if numbers.all Numeral.isWritable then some (numbers.map Numeral.ofInt) else none := by
    induction numbers with
    | nil => rfl
    | cons number rest ih =>
        rw [List.mapM_cons, ih, Numeral.write?, List.all_cons]
        cases Numeral.isWritable number <;> cases rest.all Numeral.isWritable <;> rfl
  rw [writeAll, numerals]
  cases numbers.all Numeral.isWritable <;> rfl

theorem writeAll_eq_error {numbers : List Int} {fault : Fault}
    (failed : writeAll numbers = .error fault) : fault = .numberTooLong := by
  rw [writeAll_eq] at failed
  split at failed
  · contradiction
  · exact (Except.error.inj failed).symm

end Command

namespace Node

open Command

/-- So many rolls in a row, from a position in the stream on: their values, and the position
after them. -/
def rollTimes (draws : Draws) (node : Node Unit) : Nat → Nat → Except Fault (List Int) × Nat
  | 0, position => (.ok [], position)
  | times + 1, position =>
      let first := node.reply everySlot draws .roll position
      match first.result with
      | .error fault => (.error fault, first.next)
      | .ok value =>
          let others := rollTimes draws node times first.next
          ((value :: ·) <$> others.1, others.2)

/-- The line of an expression with this node: so many rolls in a row, and the bounds that are
reported. There is none if a number in the line or on the way to it is too long. -/
def shown (draws : Draws) (node : Node Unit) (times position : Nat) : Except Fault Codes := do
  let rolls ← (node.rollTimes draws times position).1
  let numerals ← writeAll rolls
  let low ← node.reported .lowest
  let high ← node.reported .highest
  let bounds ← writeAll [low, high]
  return rollLine node numerals bounds

section

variable {draws : Draws} {node : Node Unit} {times position : Nat}

theorem rollTimes_succ_of_error {fault : Fault}
    (failed : (node.reply everySlot draws .roll position).result = .error fault) :
    node.rollTimes draws (times + 1) position
      = (.error fault, (node.reply everySlot draws .roll position).next) := by
  simp only [rollTimes, failed]

theorem rollTimes_succ_of_ok {value : Int}
    (rolled : (node.reply everySlot draws .roll position).result = .ok value) :
    node.rollTimes draws (times + 1) position
      = ((value :: ·) <$> (node.rollTimes draws times
            (node.reply everySlot draws .roll position).next).1,
          (node.rollTimes draws times (node.reply everySlot draws .roll position).next).2) := by
  simp only [rollTimes, rolled]

variable (checked : ∀ sub ∈ node.subtrees, sub.Checked)

include checked

theorem rollTimes_eq_error {fault : Fault}
    (failed : (node.rollTimes draws times position).1 = .error fault) : fault = .numberTooLong := by
  induction times generalizing position with
  | zero => contradiction
  | succ times ih =>
      have first := result_reply_eq everySlot draws checked .roll position
      cases rolled : (node.reply everySlot draws .roll position).result with
      | error other =>
          rw [rollTimes_succ_of_error rolled] at failed
          rw [rolled] at first
          cases failed
          split at first
          · contradiction
          · exact Except.error.inj first
      | ok value =>
          rw [rollTimes_succ_of_ok rolled] at failed
          cases others : (node.rollTimes draws times
            (node.reply everySlot draws .roll position).next).1 with
          | error other =>
              rw [others] at failed
              cases failed
              exact ih others
          | ok values =>
              rw [others] at failed
              contradiction

theorem reported_eq_error {side : Extreme} {fault : Fault}
    (failed : node.reported side = .error fault) :
    fault = .numberTooLong := by
  rw [reported_eq checked] at failed
  split at failed
  · contradiction
  · exact (Except.error.inj failed).symm

/-- Only for a number that is too long there is no line. -/
theorem shown_eq_error {fault : Fault} (failed : node.shown draws times position = .error fault) :
    fault = .numberTooLong := by
  simp only [shown, except_bind_eq_error] at failed
  rcases failed with failed |
    ⟨_, -, failed | ⟨_, -, failed | ⟨_, -, failed | ⟨_, -, failed | failed⟩⟩⟩⟩
  · exact rollTimes_eq_error checked failed
  · exact writeAll_eq_error failed
  · exact reported_eq_error checked failed
  · exact reported_eq_error checked failed
  · exact writeAll_eq_error failed
  · obtain ⟨_, -, failed⟩ := failed
    contradiction

end

end Node

/-! ### The evaluation of an expression -/

/-- What comes first may read draws, and what comes later must not. -/
theorem Evaluation.run_bind_of_still {σ β γ : Type} {evaluation : Evaluation σ β}
    {later : β → Evaluation σ γ} {position next : Nat} {known : σ} {first : Except Fault β}
    {second : β → Except Fault γ}
    (ran : ∃ between, evaluation.run ⟨position, known⟩ = (first, ⟨next, between⟩))
    (still : ∀ value between, ∃ last,
      (later value).run ⟨next, between⟩ = (second value, ⟨next, last⟩)) :
    ∃ last, (evaluation >>= later).run ⟨position, known⟩ = (first >>= second, ⟨next, last⟩) := by
  obtain ⟨between, ran⟩ := ran
  cases first with
  | error fault => exact ⟨between, run_bind_of_error ran⟩
  | ok value =>
      obtain ⟨last, ranLater⟩ := still value between
      exact ⟨last, by rw [run_bind_of_ok ran, ranLater]; rfl⟩

namespace Command

open Node

section

variable {heard : Bool} {node : Node Unit}
  (accepted : ∀ sub ∈ node.subtrees, sub.AcceptedBy (logging heard))

include accepted

/-- Whoever listens, the rolls are the same. -/
theorem run_each_replicate (draws : Draws) (times position : Nat) (log : Array String) :
    let rolls := node.rollTimes draws times position
    ∃ last, (Evaluation.each (List.replicate times (node.ask (logging heard) draws .roll))).run
      ⟨position, log⟩ = (rolls.1, ⟨rolls.2, last⟩) := by
  induction times generalizing position log with
  | zero => exact ⟨log, rfl⟩
  | succ times ih =>
      obtain ⟨between, -, ran⟩ := run_ask_of_accepted draws accepted .roll position log
      rw [List.replicate_succ, Evaluation.each]
      cases rolled : (node.reply everySlot draws .roll position).result with
      | error fault =>
          rw [rolled] at ran
          rw [rollTimes_succ_of_error rolled]
          exact ⟨between, Evaluation.run_bind_of_error ran⟩
      | ok value =>
          rw [rolled] at ran
          rw [rollTimes_succ_of_ok rolled, Evaluation.run_bind_of_ok ran]
          exact Evaluation.run_bind_of_still (ih _ between) fun others last => ⟨last, rfl⟩

/-- Whoever listens, the bounds are those that are reported. -/
theorem run_ask_measure (draws : Draws) (side : Extreme) (position : Nat) (log : Array String) :
    ∃ last, (node.ask (logging heard) draws side.measure).run ⟨position, log⟩
      = (node.reported side, ⟨position, last⟩) := by
  obtain ⟨last, -, ran⟩ := run_ask_of_accepted draws accepted side.measure position log
  obtain ⟨result, next⟩ := reply_measure everySlot draws node side position
  exact ⟨last, by rw [ran, result, next]⟩

/-- Whoever listens, the line is the one that is shown. -/
theorem run_rolled (draws : Draws) (times position : Nat) (log : Array String) :
    ∃ last, (rolled heard draws node times).run ⟨position, log⟩
      = (node.shown draws times position, ⟨(node.rollTimes draws times position).2, last⟩) := by
  refine Evaluation.run_bind_of_still (run_each_replicate accepted draws times position log) ?_
  refine fun rolls log => Evaluation.run_bind_of_still ⟨log, rfl⟩ fun numerals log => ?_
  refine Evaluation.run_bind_of_still (run_ask_measure accepted draws .lowest _ log) ?_
  refine fun low log =>
    Evaluation.run_bind_of_still (run_ask_measure accepted draws .highest _ log) ?_
  refine fun high log => ?_
  exact Evaluation.run_bind_of_still ⟨log, rfl⟩ fun bounds log => ⟨log, rfl⟩

end

/-! ### Lines -/

section

variable (shop : Workshop) (draws : Draws) (given : Given Int)

/-- The line of an expression that is answered from a position in the stream on, and the position
after it. A refused expression draws nothing. -/
inductive Answers (position : Nat) (text : Text) : Codes → Nat → Prop where
  | refused {fault : Fault} (made : (shop.build text).result = .error fault)
      (named : fault.kind.isNamed = true) (logged : shop.logs text = true) :
      Answers position text (faultLine fault) position
  | rolled {node : Node Unit} {times : Nat} {line : Codes}
      (made : (shop.build text).result = .ok node) (counted : rollCount given = .ok times)
      (shown : node.shown draws times position = .ok line) :
      Answers position text line (node.rollTimes draws times position).2

/-- An expression with which the command ends, and the fault that ends it. -/
inductive Ends (position : Nat) (text : Text) : Fault → Prop where
  /-- It is refused for a reason that is not explained. -/
  | unnamed {fault : Fault} (made : (shop.build text).result = .error fault)
      (named : fault.kind.isNamed = false) (logged : shop.logs text = true) :
      Ends position text fault
  /-- A node that is asked for something on the way cannot be written in the log. -/
  | unlogged {fault : Fault} (made : (shop.build text).result = .error fault)
      (silent : shop.logs text = false) :
      Ends position text .numberTooLong
  /-- It should be rolled, and it is not known how often. -/
  | uncounted {node : Node Unit} {fault : Fault} (made : (shop.build text).result = .ok node)
      (uncounted : rollCount given = .error fault) :
      Ends position text fault
  /-- It is accepted, and has no line. -/
  | unshown {node : Node Unit} {times : Nat} {fault : Fault}
      (made : (shop.build text).result = .ok node) (counted : rollCount given = .ok times)
      (failed : node.shown draws times position = .error fault) :
      Ends position text fault

end

section

variable {shop : Workshop} {draws : Draws} {given : Given Int} {position next : Nat} {text : Text}
  {line : Codes} {fault : Fault}

theorem Answers.unique {other : Codes} {next' : Nat}
    (answers : Answers shop draws given position text line next)
    (answersToo : Answers shop draws given position text other next') :
    line = other ∧ next = next' := by
  cases answers with
  | refused made =>
      cases answersToo with
      | refused madeToo =>
          cases made.symm.trans madeToo
          exact ⟨rfl, rfl⟩
      | rolled madeToo => cases made.symm.trans madeToo
  | rolled made counted shown =>
      cases answersToo with
      | refused madeToo => cases made.symm.trans madeToo
      | rolled madeToo countedToo shownToo =>
          cases made.symm.trans madeToo
          cases counted.symm.trans countedToo
          cases shown.symm.trans shownToo
          exact ⟨rfl, rfl⟩

/-- No expression is answered and ends the command. -/
theorem Answers.not_ends (answers : Answers shop draws given position text line next) :
    ¬Ends shop draws given position text fault := by
  intro ends
  cases answers with
  | refused made named logged =>
      cases ends with
      | unnamed madeToo unnamed =>
          cases made.symm.trans madeToo
          cases named.symm.trans unnamed
      | unlogged _ silent => cases logged.symm.trans silent
      | uncounted madeToo => cases made.symm.trans madeToo
      | unshown madeToo => cases made.symm.trans madeToo
  | rolled made counted shown =>
      cases ends with
      | unnamed madeToo => cases made.symm.trans madeToo
      | unlogged madeToo => cases made.symm.trans madeToo
      | uncounted _ uncounted => cases counted.symm.trans uncounted
      | unshown madeToo countedToo failed =>
          cases made.symm.trans madeToo
          cases counted.symm.trans countedToo
          cases shown.symm.trans failed

theorem Ends.unique {other : Fault} (ends : Ends shop draws given position text fault)
    (endsToo : Ends shop draws given position text other) : fault = other := by
  cases ends with
  | unnamed made _ logged =>
      cases endsToo with
      | unnamed madeToo =>
          cases made.symm.trans madeToo
          rfl
      | unlogged _ silent => cases logged.symm.trans silent
      | uncounted madeToo => cases made.symm.trans madeToo
      | unshown madeToo => cases made.symm.trans madeToo
  | unlogged made silent =>
      cases endsToo with
      | unnamed _ _ logged => cases logged.symm.trans silent
      | unlogged => rfl
      | uncounted madeToo => cases made.symm.trans madeToo
      | unshown madeToo => cases made.symm.trans madeToo
  | uncounted made uncounted =>
      cases endsToo with
      | unnamed madeToo => cases made.symm.trans madeToo
      | unlogged madeToo => cases made.symm.trans madeToo
      | uncounted _ uncountedToo =>
          cases uncounted.symm.trans uncountedToo
          rfl
      | unshown _ counted => cases counted.symm.trans uncounted
  | unshown made counted failed =>
      cases endsToo with
      | unnamed madeToo => cases made.symm.trans madeToo
      | unlogged madeToo => cases made.symm.trans madeToo
      | uncounted _ uncounted => cases counted.symm.trans uncounted
      | unshown madeToo countedToo failedToo =>
          cases made.symm.trans madeToo
          cases counted.symm.trans countedToo
          cases failed.symm.trans failedToo
          rfl

/-- An expression with which the command ends is not refused. -/
theorem Ends.not_refuses (ends : Ends shop draws given position text fault) :
    shop.refuses text = false := by
  cases ends with
  | unnamed made unnamed => rw [Workshop.refuses_of_error made, unnamed, Bool.false_and]
  | unlogged made silent => rw [Workshop.refuses_of_error made, silent, Bool.and_false]
  | uncounted made => exact Workshop.not_refuses_of_ok made
  | unshown made => exact Workshop.not_refuses_of_ok made

/-- If the steps of the building can be logged it does not matter whether they are. -/
theorem Answers.marking (answers : Answers shop draws given position text line next)
    (logged : (shop.marking true).logs text = true) (mark : Bool) :
    Answers (shop.marking mark) draws given position text line next := by
  have same := shop.result_build_marking mark shop.heard text
  cases answers with
  | refused made named => exact .refused (same.trans made) named (Workshop.logs_marking logged mark)
  | rolled made counted shown => exact .rolled (same.trans made) counted shown

theorem Ends.marking (ends : Ends shop draws given position text fault)
    (logged : (shop.marking true).logs text = true) (mark : Bool) :
    Ends (shop.marking mark) draws given position text fault := by
  have same := shop.result_build_marking mark shop.heard text
  cases ends with
  | unnamed made unnamed =>
      exact .unnamed (same.trans made) unnamed (Workshop.logs_marking logged mark)
  | unlogged _ silent =>
      have noted : shop.logs text = true := Workshop.logs_marking logged shop.heard
      cases noted.symm.trans silent
  | uncounted made uncounted => exact .uncounted (same.trans made) uncounted
  | unshown made counted failed => exact .unshown (same.trans made) counted failed

end

/-- Where an error is reported, the line begins so. -/
def errorPrefix : Codes :=
  Codes.ofString "error: "

theorem errorPrefix_faultLine (fault : Fault) : errorPrefix <+: faultLine fault := by
  rw [faultLine, List.append_assoc]
  exact List.prefix_append _ _

/-- No roll is mistaken for an error: an expression does not begin with the letter. -/
theorem not_errorPrefix_rollLine (node : Node Unit) (rolls bounds : List Text) :
    ¬errorPrefix <+: rollLine node rolls bounds := by
  intro begins
  have noLetter : 'e' ∉ node.spelling := node.madeOf_spelling.notMem (by decide) (by decide)
  have first : (rollLine node rolls bounds).head? = some 'e'.toNat := by
    obtain ⟨rest, same⟩ := begins
    rw [← same]
    rfl
  let behind : Text := Text.join [',', ' '] rolls ++ " (min ".toList
    ++ Text.join ", max ".toList bounds ++ ")\n".toList
  have same : rollLine node rolls bounds
      = Codes.ofText (node.spelling ++ ':' :: ' ' :: behind) := by
    simp [rollLine, behind, Codes.ofString]
  rw [same, Codes.ofText] at first
  cases shown : node.spelling with
  | nil => simp [shown] at first
  | cons c rest =>
      simp only [shown, List.cons_append, List.map_cons, List.head?_cons,
        Option.some.injEq] at first
      exact noLetter (by simp [shown, Char.ext (UInt32.toNat.inj first)])

theorem not_errorPrefix_shown {node : Node Unit} {draws : Draws} {times position : Nat}
    {line : Codes}
    (shown : node.shown draws times position = .ok line) : ¬errorPrefix <+: line := by
  simp only [Node.shown, except_bind_eq_ok] at shown
  obtain ⟨_, -, numerals, -, _, -, _, -, bounds, -, made⟩ := shown
  cases made
  exact not_errorPrefix_rollLine node numerals bounds

/-- A line reports an error exactly where its expression is refused. -/
theorem Answers.errors {shop : Workshop} {draws : Draws} {given : Given Int} {position next : Nat}
    {text : Text} {line : Codes} (answers : Answers shop draws given position text line next) :
    errorPrefix <+: line ↔ shop.refuses text = true := by
  cases answers with
  | refused made named logged =>
      simp [Workshop.refuses_of_error made, named, logged, errorPrefix_faultLine]
  | rolled made _ shown => simp [Workshop.not_refuses_of_ok made, not_errorPrefix_shown shown]

/-! ### The answer to an expression -/

/-- An expression is answered, or the command ends with it and prints nothing about it. -/
theorem tell_cases (setup : Setup) (draws : Draws) (position : Nat) (text : Text) :
    let told := tell setup draws position text
    (∃ fault, Ends setup.shop draws setup.times position text fault ∧ told.line = [] ∧
      told.verdict = .stopped fault) ∨
    Answers setup.shop draws setup.times position text told.line told.next ∧
      told.verdict = if setup.shop.refuses text then .refused else .rolled := by
  have noted := setup.shop.logAll_eq text #[]
  obtain ⟨log, logged⟩ : ∃ log, logAll setup.shop.heard #[] (setup.shop.build text).entries
      = (if setup.shop.logs text then none else some .numberTooLong, log) :=
    ⟨_, Prod.ext noted rfl⟩
  intro told
  cases made : (setup.shop.build text).result with
  | error fault =>
      cases written : setup.shop.logs text with
      | false =>
          refine .inl ⟨.numberTooLong, .unlogged made written, ?_⟩
          simp [told, tell, logged, written]
      | true =>
          cases named : fault.kind.isNamed with
          | false =>
              refine .inl ⟨fault, .unnamed made named written, ?_⟩
              simp [told, tell, logged, written, made, named]
          | true =>
              have refuses : setup.shop.refuses text = true := by
                rw [Workshop.refuses_of_error made, named, written, Bool.and_self]
              have answers : Answers setup.shop draws setup.times position text (faultLine fault)
                  position := .refused made named written
              simpa [told, tell, logged, written, made, named, refuses] using answers
  | ok node =>
      have written := Workshop.logs_of_build made
      have refuses := Workshop.not_refuses_of_ok made
      cases counted : rollCount setup.times with
      | error fault =>
          refine .inl ⟨fault, .uncounted made counted, ?_⟩
          simp [told, tell, logged, written, made, counted]
      | ok times =>
          obtain ⟨-, -, -, writable⟩ := setup.shop.build_eq_ok.mp made
          have accepted : ∀ sub ∈ node.subtrees, sub.AcceptedBy (logging setup.shop.heard) :=
            fun sub mem => acceptedBy_logging _ (isWritable_of_mem_subtrees writable sub mem)
          obtain ⟨last, ran⟩ := run_rolled accepted draws times position
            (log ++ builtLines setup.level node text)
          cases shown : node.shown draws times position with
          | error fault =>
              rw [shown] at ran
              refine .inl ⟨fault, .unshown made counted shown, ?_⟩
              simp [told, tell, logged, written, made, counted, ran]
          | ok line =>
              rw [shown] at ran
              have answers : Answers setup.shop draws setup.times position text line
                  (node.rollTimes draws times position).2 := .rolled made counted shown
              simpa [told, tell, logged, written, made, counted, ran, refuses] using answers

/-- The workshop of the settings. -/
def workshop (settings : Settings) (heard : Bool) : Workshop :=
  ⟨settings.defaultSides.spelling?, settings.maxExplosions.value, heard⟩

/-- Dice without a face of their own get one by the settings, and then are dice or are refused
with a named fault, also where the setting is yes or no. -/
theorem readsFaces_spelling? (sides : Whole) :
    Workshop.ReadsFaces (sides.spelling?.getD []) := by
  cases sides with
  | number sides => exact (Workshop.legible_write? sides).readsFaces
  | flag sides =>
      intro face
      cases face with
      | none => cases sides <;> exact orderly_named rfl
      | some face =>
          have reads := (Workshop.legible_write? 0).readsFaces (some face)
          simpa only [Option.map_some, Option.getD_some] using reads

/-- If it is known how often to roll, only a number that is too long ends the command. -/
theorem Ends.fault_eq {settings : Settings} {heard : Bool} {draws : Draws} {given : Given Int}
    {position : Nat} {text : Text} {fault : Fault}
    (ends : Ends (workshop settings heard) draws given position text fault) :
    fault = .numberTooLong ∨ fault = .unconvertedNumber ∨
      given = .void ∧ fault = .optionWithoutValue := by
  cases ends with
  | unnamed made unnamed =>
      have reads : Workshop.ReadsFaces (workshop settings heard).face :=
        readsFaces_spelling? settings.defaultSides
      rcases (workshop settings heard).expected_of_build reads made with
        (named | tooLong) | ⟨unconverted, -⟩
      · exact absurd (named.symm.trans unnamed) (by decide)
      · exact .inl tooLong
      · exact .inr (.inl unconverted)
  | unlogged => exact .inl rfl
  | uncounted _ uncounted =>
      cases given with
      | absent | value => contradiction
      | void =>
          cases uncounted
          exact .inr (.inr ⟨rfl, rfl⟩)
  | unshown made _ failed =>
      exact .inl (shown_eq_error ((workshop settings heard).checked_of_build made) failed)

end Command

end DicePool
