/-
Module: DicePool.Proofs.Printing
Purpose: The command line answers its expressions one by one.
Main exports: Arguments.parse_trace, Command.Prints, Command.Prints.unique, Command.Prints.of_kept,
  Command.Prints.marking, Command.run_prints, Command.expressions_are_independent,
  Command.long_power_ends_command
-/
import DicePool.Proofs.Answering

/-!
What the command line prints is stated without its log: `Command.Prints` relates expressions
and lines, where an expression that is refused leaves the stream as it is and another one goes
on from where the stream was left.  Where a number is too long to be converted the command ends,
and there is no line for the expression and for those behind it.

There is one list of lines for the expressions (`Prints.unique`), and without some that are refused
the lines of the others are the same (`Prints.of_kept`).  The command line prints these lines,
whatever is logged on the way: `Command.run_prints`.
-/

namespace DicePool

/-! ### Arguments -/

/-- The same outcome, and the steps are logged. -/
def Parsed.traced : Parsed → Parsed
  | .run arguments => .run { arguments with trace := true }
  | .exit code => .exit code

namespace Arguments

/-- The option by which every evaluation step is logged. -/
def traceOption : Text :=
  "--trace".toList

/-- The same arguments, and the steps are logged. -/
def Progress.traced (progress : Progress) : Progress :=
  { progress with trace := true }

theorem takeRow_traced (progress : Progress) (row : List (ArgumentClass × Text)) :
    progress.traced.takeRow row = (progress.takeRow row).traced := by
  unfold Progress.takeRow
  simp only [apply_ite Progress.traced]
  rfl

theorem setValue_traced (progress : Progress) (option : CommandOption) (value : Text) :
    progress.traced.setValue option value
      = (progress.setValue option value).map Progress.traced := by
  cases option <;> simp only [Progress.setValue, Option.map_map] <;> rfl

theorem finish_traced (progress : Progress) : progress.traced.finish = progress.finish.traced := by
  obtain ⟨expressions, hasExtra, times, settings, trace⟩ := progress
  cases expressions with
  | none => rfl
  | some expressions => cases hasExtra <;> rfl

/-- What follows an option with a value, if the value can be used. -/
def consumeAfter (fuel : Nat) (progress : Option Progress)
    (classes : List (ArgumentClass × Text)) : Parsed :=
  match progress with
  | some progress => consume fuel progress classes
  | none => .exit usageCode

section

variable {fuel : Nat} (same : ∀ progress classes,
  consume fuel (Progress.traced progress) classes = (consume fuel progress classes).traced)

include same

theorem consumeAfter_traced (progress : Progress) (option : CommandOption) (value : Text)
    (rest : List (ArgumentClass × Text)) :
    consumeAfter fuel (progress.traced.setValue option value) rest
      = (consumeAfter fuel (progress.setValue option value) rest).traced := by
  rw [setValue_traced]
  cases progress.setValue option value with
  | none => rfl
  | some progress => exact same progress rest

theorem consume_option_traced (progress : Progress) (option : CommandOption) (isLetter : Bool)
    (value : Option Text) (s : Text) (rest : List (ArgumentClass × Text)) :
    consume (fuel + 1) progress.traced ((.option option isLetter value, s) :: rest)
      = (consume (fuel + 1) progress ((.option option isLetter value, s) :: rest)).traced := by
  cases option with
  | help =>
      cases value with
      | none => rfl
      | some value =>
          show (if isLetter && isHelpRow value then Parsed.exit helpCode else .exit usageCode)
            = Parsed.traced (if isLetter && isHelpRow value then .exit helpCode
              else .exit usageCode)
          split <;> rfl
  | trace =>
      cases value with
      | none => exact same progress.traced rest
      | some value => rfl
  | times | settings =>
      cases value with
      | some value => exact consumeAfter_traced same progress _ value rest
      | none =>
          rcases rest with _ | ⟨⟨kind, value⟩, rest⟩
          · rfl
          · cases kind with
            | positional => exact consumeAfter_traced same progress _ value rest
            | _ => rfl

end

/-- That the steps are logged changes nothing else about what the arguments ask for. -/
theorem consume_traced (fuel : Nat) (progress : Progress)
    (classes : List (ArgumentClass × Text)) :
    consume fuel progress.traced classes = (consume fuel progress classes).traced := by
  induction fuel generalizing progress classes with
  | zero =>
      cases classes with
      | nil => exact finish_traced progress
      | cons => rfl
  | succ fuel ih =>
      rcases classes with _ | ⟨⟨kind, s⟩, rest⟩
      · exact finish_traced progress
      cases kind with
      | positional | separator =>
          show consume fuel (progress.traced.takeRow _) _
            = (consume fuel (progress.takeRow _) _).traced
          rw [takeRow_traced]
          exact ih _ _
      | unknownOption => exact ih { progress with hasExtra := true } rest
      | ambiguous => rfl
      | option option isLetter value =>
          exact consume_option_traced ih progress option isLetter value s rest

/-- With the option in front the arguments ask for the same, and for the log. -/
theorem parse_trace (arguments : List Text) :
    parse (traceOption :: arguments) = (parse arguments).traced := by
  have kind : classify traceOption = .option .trace false none := by decide
  have classes : classifyAll (traceOption :: arguments)
      = (.option .trace false none, traceOption) :: classifyAll arguments := by
    rw [classifyAll, if_neg (by decide), kind]
  simp only [parse, classes, List.any_cons, List.length_cons]
  have unambiguous : (ArgumentClass.option .trace false none == .ambiguous) = false := by decide
  rw [unambiguous, Bool.false_or]
  split
  · rfl
  · exact consume_traced _ ⟨none, false, .absent, .absent, false⟩ _

end Arguments

/-! ### Lines in a row -/

namespace Command

open Node

section

variable (shop : Workshop) (draws : Draws) (given : Given Int)

/-- The lines of expressions from a position in the stream on, and the fault that ends the command
if one does. Each expression goes on from where the one before it has left the stream. -/
inductive Prints : Nat → List Text → List Codes → Option Fault → Prop where
  | nil {position : Nat} : Prints position [] [] none
  | answered {position next : Nat} {text : Text} {rest : List Text} {line : Codes}
      {lines : List Codes} {stop : Option Fault}
      (answers : Answers shop draws given position text line next)
      (others : Prints next rest lines stop) :
      Prints position (text :: rest) (line :: lines) stop
  | ended {position : Nat} {text : Text} {rest : List Text} {fault : Fault}
      (ends : Ends shop draws given position text fault) :
      Prints position (text :: rest) [] (some fault)

end

namespace Prints

variable {shop : Workshop} {draws : Draws} {given : Given Int} {position : Nat} {texts : List Text}
  {lines : List Codes} {stop : Option Fault}

/-- There is one list of lines, and one end. -/
theorem unique {others : List Codes} {stop' : Option Fault}
    (prints : Prints shop draws given position texts lines stop)
    (printsToo : Prints shop draws given position texts others stop') :
    lines = others ∧ stop = stop' := by
  induction prints generalizing others stop' with
  | nil =>
      cases printsToo
      exact ⟨rfl, rfl⟩
  | answered answers _ ih =>
      cases printsToo with
      | answered answersToo printsToo =>
          obtain ⟨rfl, rfl⟩ := answers.unique answersToo
          obtain ⟨rfl, rfl⟩ := ih printsToo
          exact ⟨rfl, rfl⟩
      | ended ends => exact absurd ends answers.not_ends
  | ended ends =>
      cases printsToo with
      | answered answers => exact absurd ends answers.not_ends
      | ended endsToo =>
          cases ends.unique endsToo
          exact ⟨rfl, rfl⟩

/-- Without some of the refused expressions the lines of the others are the same. -/
theorem of_kept (prints : Prints shop draws given position texts lines stop)
    {kept : List (Text × Codes)} {later : List Text} (sub : kept.Sublist (texts.zip lines))
    (spared : kept.filter (fun answered => !shop.refuses answered.1)
      = (texts.zip lines).filter fun answered => !shop.refuses answered.1)
    (subLater : later.Sublist (texts.drop lines.length))
    (sparedLater : later.filter (fun text => !shop.refuses text)
      = (texts.drop lines.length).filter fun text => !shop.refuses text) :
    Prints shop draws given position (kept.map Prod.fst ++ later) (kept.map Prod.snd) stop := by
  induction prints generalizing kept with
  | nil =>
      obtain rfl : kept = [] := List.sublist_nil.mp sub
      obtain rfl : later = [] := List.sublist_nil.mp subLater
      exact .nil
  | @answered _ _ text _ _ _ _ answers others ih =>
      rw [List.zip_cons_cons] at sub spared
      cases sub with
      | cons_cons _ sub =>
          refine .answered answers (ih sub ?_ subLater sparedLater)
          cases refuses : shop.refuses text <;> simpa [refuses] using spared
      | cons _ sub =>
          cases answers with
          | refused made named logged =>
              have refuses := (Workshop.refuses_of_error made).trans
                (by rw [named, logged, Bool.and_self])
              exact ih sub (by simpa [refuses] using spared) subLater sparedLater
          | rolled made =>
              -- An expression that is rolled would be missing.
              have spares := Workshop.not_refuses_of_ok made
              have fewer := (sub.filter fun answered => !shop.refuses answered.1).length_le
              rw [spared] at fewer
              simp [spares] at fewer
  | @ended _ text _ _ ends =>
      obtain rfl : kept = [] := List.sublist_nil.mp (by simpa using sub)
      have spares := ends.not_refuses
      rw [List.length_nil, List.drop_zero] at subLater sparedLater
      cases subLater with
      | cons_cons _ _ => exact .ended ends
      | cons _ subLater =>
          have fewer := (subLater.filter fun text => !shop.refuses text).length_le
          rw [sparedLater] at fewer
          simp [spares] at fewer

/-- The lines are those of the first expressions, and of all if nothing ends the command. -/
theorem length_le (prints : Prints shop draws given position texts lines stop) :
    lines.length ≤ texts.length ∧ (stop = none ↔ lines.length = texts.length) := by
  induction prints with
  | nil => simp
  | answered _ _ ih => simpa using ih
  | ended => simp

theorem errors (prints : Prints shop draws given position texts lines stop) :
    List.Forall₂ (fun text line => errorPrefix <+: line ↔ shop.refuses text = true)
      (texts.take lines.length) lines := by
  induction prints with
  | nil => exact .nil
  | answered answers _ ih => exact .cons answers.errors ih
  | ended => exact .nil

/-- What ends the command comes from an expression. -/
theorem exists_ends (prints : Prints shop draws given position texts lines stop) {fault : Fault}
    (ended : stop = some fault) : ∃ position' text, Ends shop draws given position' text fault := by
  induction prints with
  | nil => contradiction
  | answered _ _ ih => exact ih ended
  | ended ends =>
      cases ended
      exact ⟨_, _, ends⟩

/-- If the steps of the building can be logged it does not matter whether they are. -/
theorem marking (prints : Prints shop draws given position texts lines stop)
    (logged : ∀ text ∈ texts, (shop.marking true).logs text = true) (mark : Bool) :
    Prints (shop.marking mark) draws given position texts lines stop := by
  induction prints with
  | nil => exact .nil
  | answered answers _ ih =>
      obtain ⟨first, others⟩ := List.forall_mem_cons.mp logged
      exact .answered (answers.marking first mark) (ih others)
  | ended ends => exact .ended (ends.marking (List.forall_mem_cons.mp logged).1 mark)

end Prints

/-! ### What is printed -/

/-- The code of a command line with these expressions. -/
def exitCode (shop : Workshop) (texts : List Text) : Nat :=
  if texts.any shop.refuses then 1 else 0

/-- The end of a command line with these expressions, lines and log. -/
def conclude (shop : Workshop) (texts : List Text) (lines : List Codes) (stop : Option Fault)
    (log : String) : Ending :=
  match stop with
  | none => .finished (exitCode shop texts) lines.flatten log
  | some fault => .stopped fault lines.flatten log

theorem conclude_congr {shop other : Workshop} {texts : List Text}
    (same : ∀ text ∈ texts, other.refuses text = shop.refuses text) (lines : List Codes)
    (stop : Option Fault) (log : String) :
    conclude other texts lines stop log = conclude shop texts lines stop log := by
  have refused : texts.any other.refuses = texts.any shop.refuses := by
    rw [Bool.eq_iff_iff, List.any_eq_true, List.any_eq_true]
    exact exists_congr fun text => and_congr_right fun mem => by rw [same text mem]
  cases stop with
  | none => simp only [conclude, exitCode, refused]
  | some fault => rfl

/-- The expressions are answered by their lines, up to the one with which the command ends. -/
theorem prints_tellAll (setup : Setup) (draws : Draws) (position : Nat) (texts : List Text) :
    let answers := tellAll setup draws position texts
    ∃ lines, Prints setup.shop draws setup.times position texts lines (stop? answers) ∧
      answers.flatMap Told.line = lines.flatten ∧
      (stop? answers = none →
        answers.any (·.verdict == .refused) = texts.any setup.shop.refuses) := by
  induction texts generalizing position with
  | nil => exact ⟨[], .nil, rfl, fun _ => rfl⟩
  | cons text rest ih =>
      rcases tell_cases setup draws position text with
        ⟨fault, ends, line, verdict⟩ | ⟨answers, verdict⟩
      · simp only [tellAll, verdict]
        refine ⟨[], ?_, by simp [line], by simp [stop?, verdict]⟩
        simpa [stop?, verdict] using Prints.ended ends
      · obtain ⟨lines, prints, output, refused⟩ := ih (tell setup draws position text).next
        refine ⟨(tell setup draws position text).line :: lines, ?_⟩
        cases refuses : setup.shop.refuses text <;>
          simp only [refuses, if_true, Bool.false_eq_true, if_false] at verdict <;>
          simp only [tellAll, verdict]
        · have accepted : (Verdict.rolled == .refused) = false := by decide
          refine ⟨?_, by simp [output], ?_⟩
          · simpa [stop?, verdict] using Prints.answered answers prints
          · simpa [stop?, verdict, refuses, accepted] using refused
        · refine ⟨?_, by simp [output], ?_⟩
          · simpa [stop?, verdict] using Prints.answered answers prints
          · simp [verdict, refuses]

theorem exists_finish_eq_conclude (setup : Setup) (draws : Draws) (texts : List Text) :
    ∃ lines stop log, Prints setup.shop draws setup.times 0 texts lines stop ∧
      finish (tellAll setup draws 0 texts) = conclude setup.shop texts lines stop log := by
  obtain ⟨lines, prints, output, refused⟩ := prints_tellAll setup draws 0 texts
  refine ⟨lines, _, String.join ((tellAll setup draws 0 texts).flatMap Told.log), prints, ?_⟩
  cases stopped : stop? (tellAll setup draws 0 texts) with
  | some fault => simp only [finish, stopped, output, conclude]
  | none => simp only [finish, stopped, output, conclude, refused stopped, exitCode]

/-- Whether every evaluation step is logged. The level of the log does not count then. -/
def traced (settings : Settings) (arguments : Arguments) : Bool :=
  arguments.trace || settings.trace.isTruthy

section

variable (load : Loader) (read : Text → Except Fault Text) {argv : List Text}
  {arguments : Arguments} {settings : Settings}

/-- With settings that can be used the command line prints the lines of its expressions. -/
theorem run_prints (parsed : Arguments.parse argv = .run arguments)
    (opened : openSettings load read arguments.settings = .ok settings)
    (levelled : traced settings arguments = true ∨
      ∃ level, Settings.logLevel? settings.logLevel = .ok level)
    (draws : Draws) :
    let shop := workshop settings (traced settings arguments)
    ∃ lines stop log,
      Prints shop draws arguments.times 0 arguments.expressions lines stop ∧
      run load read draws argv = conclude shop arguments.expressions lines stop log := by
  have valid : ∃ level, (if traced settings arguments then .ok debugLevel
      else Settings.logLevel? settings.logLevel) = .ok level := by
    rcases levelled with followed | ⟨level, levelled⟩
    · exact ⟨debugLevel, if_pos followed⟩
    · split
      · exact ⟨debugLevel, rfl⟩
      · exact ⟨level, levelled⟩
  obtain ⟨level, levelled⟩ := valid
  rw [traced] at levelled
  simp only [run, parsed, opened, runWith, levelled]
  exact exists_finish_eq_conclude
    ⟨workshop settings (traced settings arguments), level, arguments.times⟩
    draws arguments.expressions

end


/-- The expressions of a command line are answered one by one.  Each has a line of its own, in
their order, which reports an error exactly where the expression is refused by one of the faults
that are explained, and otherwise shows its rolls on the draws that are left; the code tells
whether some are refused.  Without some of the refused expressions the lines of the others are the
same, and if the steps are logged all lines are the same.  But a number that is too long to be
read or written ends the command: then the lines are those of the expressions before. -/
theorem expressions_are_independent {load : Loader} {read : Text → Except Fault Text}
    {argv : List Text} {arguments : Arguments} {settings : Settings} {times : Nat} {level : Int}
    (parsed : Arguments.parse argv = .run arguments)
    (opened : openSettings load read arguments.settings = .ok settings)
    (counted : rollCount arguments.times = .ok times)
    (levelled : Settings.logLevel? settings.logLevel = .ok level) (draws : Draws) :
    let shop := workshop settings (traced settings arguments)
    ∃ lines stop log,
      run load read draws argv = conclude shop arguments.expressions lines stop log ∧
      Prints shop draws arguments.times 0 arguments.expressions lines stop ∧
      List.Forall₂ (fun text line => errorPrefix <+: line ↔ shop.refuses text = true)
        (arguments.expressions.take lines.length) lines ∧
      (stop = none ↔ lines.length = arguments.expressions.length) ∧
      (∀ fault, stop = some fault → fault = .numberTooLong ∨ fault = .unconvertedNumber) ∧
      (∀ kept later others, List.Sublist kept (arguments.expressions.zip lines) →
        kept.filter (fun answered => !shop.refuses answered.1)
          = (arguments.expressions.zip lines).filter (fun answered => !shop.refuses answered.1) →
        List.Sublist later (arguments.expressions.drop lines.length) →
        later.filter (fun text => !shop.refuses text)
          = (arguments.expressions.drop lines.length).filter (fun text => !shop.refuses text) →
        Arguments.parse others = .run { arguments with expressions := kept.map Prod.fst ++ later } →
        ∃ log, run load read draws others
          = conclude shop (kept.map Prod.fst ++ later) (kept.map Prod.snd) stop log) ∧
      Arguments.parse (Arguments.traceOption :: argv) = .run { arguments with trace := true } ∧
      ∀ others, Arguments.parse others = .run { arguments with trace := true } →
        (∀ text ∈ arguments.expressions, (shop.marking true).logs text = true) →
        ∃ log, run load read draws others = conclude shop arguments.expressions lines stop log := by
  intro shop
  obtain ⟨lines, stop, log, prints, printed⟩ :=
    run_prints load read parsed opened (.inr ⟨level, levelled⟩) draws
  refine ⟨lines, stop, log, printed, prints, prints.errors, prints.length_le.2, ?_, ?_, ?_, ?_⟩
  · intro fault ended
    obtain ⟨_, _, ends⟩ := prints.exists_ends ended
    rcases ends.fault_eq with tooLong | unconverted | ⟨void, -⟩
    · exact .inl tooLong
    · exact .inr unconverted
    · rw [void] at counted
      contradiction
  · intro kept later others sub spared subLater sparedLater parsedToo
    obtain ⟨linesToo, stopToo, logToo, printsToo, printedToo⟩ :=
      run_prints load read parsedToo opened (.inr ⟨level, levelled⟩) draws
    obtain ⟨same, sameStop⟩ :=
      (prints.of_kept sub spared subLater sparedLater).unique printsToo
    rw [same, sameStop]
    exact ⟨logToo, printedToo⟩
  · rw [Arguments.parse_trace, parsed, Parsed.traced]
  · intro others parsedToo logged
    obtain ⟨linesToo, stopToo, logToo, printsToo, printedToo⟩ :=
      run_prints load read parsedToo opened (.inr ⟨level, levelled⟩) draws
    -- With the option all steps are logged, whatever the settings say.
    have marked : workshop settings (traced settings { arguments with trace := true })
        = shop.marking true := rfl
    rw [marked] at printsToo printedToo
    obtain ⟨same, sameStop⟩ := (prints.marking logged true).unique printsToo
    have refuses : ∀ text ∈ arguments.expressions,
        (shop.marking true).refuses text = shop.refuses text := fun text mem =>
      Workshop.refuses_marking (logged text mem)
    rw [same, sameStop, printedToo, conclude_congr refuses]
    exact ⟨logToo, rfl⟩

/-- Two expressions and one between them that is refused, each rolled twice: without the refused
one, and with the log, the rolls are the same. -/
theorem refused_expression_leaves_others :
    let load : Loader := fun _ => .ok .null
    let read : Text → Except Fault Text := fun file => .error (.noSuchFile file)
    let draws : Draws := .cycle #[2, 5, 1]
    let times : List Text := [['-', '-', 't', 'i', 'm', 'e', 's'], ['2']]
    let argv : List Text := times ++ [['2', 'd', '4'], ['d', '1'], ['d', '8', '!', '>', '5']]
    let others : List Text := times ++ [['2', 'd', '4'], ['d', '8', '!', '>', '5']]
    ∃ first refused last log,
      run load read draws argv = .finished 1 [first, refused, last].flatten log ∧
      (errorPrefix <+: refused ∧ ¬errorPrefix <+: first ∧ ¬errorPrefix <+: last) ∧
      (∃ log, run load read draws others = .finished 0 [first, last].flatten log) ∧
      ∃ log, run load read draws (Arguments.traceOption :: argv)
        = .finished 1 [first, refused, last].flatten log := by
  intro load read draws times argv others
  let arguments : Arguments :=
    ⟨[['2', 'd', '4'], ['d', '1'], ['d', '8', '!', '>', '5']], .value 2, .absent, false⟩
  let shop := workshop Settings.default false
  have parsed : Arguments.parse argv = .run arguments := by decide
  have parsedToo : Arguments.parse others
      = .run { arguments with expressions := [['2', 'd', '4'], ['d', '8', '!', '>', '5']] } := by
    decide
  have opened : openSettings load read arguments.settings = .ok Settings.default := rfl
  have counted : rollCount arguments.times = .ok 2 := rfl
  have levelled : Settings.logLevel? Settings.default.logLevel = .ok 30 := rfl
  obtain ⟨lines, stop, log, printed, prints, -, -, -, kept, traced, same⟩ :=
    expressions_are_independent parsed opened counted levelled draws
  -- No number on the way is too long, so that all three are answered.
  have madeFirst : (shop.build ['2', 'd', '4']).result
      = .ok (.pool () [.die () (.sided 4), .die () (.sided 4)]) :=
    shop.build_eq_ok.mpr ⟨_, rfl, rfl, by decide⟩
  have madeLast : (shop.build ['d', '8', '!', '>', '5']).result
      = .ok (.explosion () ⟨.greater, 5, 100⟩ (.pool () [.die () (.sided 8)])) :=
    shop.build_eq_ok.mpr ⟨_, rfl, rfl, by decide⟩
  have refuses : shop.refuses ['d', '1'] = true := rfl
  obtain ⟨first, shownFirst⟩ : ∃ line,
      (pool () [.die () (.sided 4), .die () (.sided 4)]).shown (.cycle #[2, 5, 1]) 2 0 = .ok line :=
    ⟨_, rfl⟩
  obtain ⟨last, shownLast⟩ : ∃ line,
      (explosion () ⟨.greater, 5, 100⟩ (.pool () [.die () (.sided 8)])).shown
        (.cycle #[2, 5, 1]) 2 4
        = .ok line :=
    ⟨_, rfl⟩
  have atFirst : Answers shop draws arguments.times 0 ['2', 'd', '4'] first 4 :=
    .rolled madeFirst counted shownFirst
  obtain ⟨refused, atSecond⟩ : ∃ line, Answers shop draws arguments.times 4 ['d', '1'] line 4 :=
    ⟨_, .refused rfl rfl rfl⟩
  have atLast := Answers.rolled madeLast counted shownLast
  have logged : ∀ text ∈ [['2', 'd', '4'], ['d', '1'], ['d', '8', '!', '>', '5']],
      ((workshop Settings.default false).marking true).logs text = true := by
    decide
  have all := Prints.answered atFirst (.answered atSecond (.answered atLast .nil))
  obtain ⟨rfl, rfl⟩ := prints.unique all
  have spares := Workshop.not_refuses_of_ok madeFirst
  have sparesLast := Workshop.not_refuses_of_ok madeLast
  have sub : List.Sublist [(['2', 'd', '4'], first), (['d', '8', '!', '>', '5'], last)]
      [(['2', 'd', '4'], first), (['d', '1'], refused), (['d', '8', '!', '>', '5'], last)] :=
    .cons_cons _ (.cons _ (.cons_cons _ .slnil))
  have spared : [((['2', 'd', '4'] : Text), first), (['d', '8', '!', '>', '5'], last)].filter
        (fun answered => !shop.refuses answered.1)
      = [(['2', 'd', '4'], first), (['d', '1'], refused), (['d', '8', '!', '>', '5'], last)].filter
        (fun answered => !shop.refuses answered.1) := by
    simp [refuses, spares, sparesLast]
  have code : exitCode shop arguments.expressions = 1 := by
    simp [exitCode, arguments, refuses]
  have codeToo : exitCode shop [['2', 'd', '4'], ['d', '8', '!', '>', '5']] = 0 := by
    simp [exitCode, spares, sparesLast]
  refine ⟨first, refused, last, log, ?_, ⟨?_, ?_, ?_⟩, ?_, ?_⟩
  · rw [← code]
    exact printed
  · exact atSecond.errors.mpr refuses
  · simp [atFirst.errors, spares]
  · simp [atLast.errors, sparesLast]
  · rw [← codeToo]
    exact kept _ [] others sub spared .slnil rfl parsedToo
  · rw [← code]
    exact same _ traced logged

/-- The expression `d6^9999` is accepted and rolled, and then its maximum has too many digits to
stand in the line: the command ends and prints nothing. -/
theorem long_power_ends_command :
    let text : Text := ['d', '6', '^', '9', '9', '9', '9']
    let shop := workshop Settings.default false
    Arguments.parse [text] = .run ⟨[text], .absent, .absent, false⟩ ∧
      (shop.build text).result = .ok (.arithmetic () .power 9999 (.pool () [.die () (.sided 6)])) ∧
      ∀ load read draws, ∃ log, run load read draws [text] = .stopped .numberTooLong [] log := by
  intro text shop
  let node : Node Unit := .arithmetic () .power 9999 (.pool () [.die () (.sided 6)])
  have parsed : Arguments.parse [text] = .run ⟨[text], .absent, .absent, false⟩ := by decide
  have made : (shop.build text).result = .ok node := shop.build_eq_ok.mpr ⟨_, rfl, rfl, by decide⟩
  refine ⟨parsed, made, fun load read draws => ?_⟩
  have greatest : ∀ high,
      node.reported .highest = .ok high → high = Operation.power.apply 6 9999 := by
    intro high reported
    have odd : Operation.isMonotone .power 9999 = true := rfl
    rw [eq_of_reported (shop.checked_of_build made) .highest reported, extreme_arithmetic,
      if_pos odd]
    rfl
  have ends : Ends shop draws .absent 0 text .numberTooLong := by
    cases shown : node.shown draws 1 0 with
    | error fault =>
        obtain rfl := shown_eq_error (shop.checked_of_build made) shown
        exact .unshown made rfl shown
    | ok line =>
        simp only [Node.shown, except_bind_eq_ok] at shown
        obtain ⟨_, -, _, -, low, -, high, reported, _, written, -⟩ := shown
        rw [writeAll_eq, greatest high reported] at written
        simp [Operation.power_six_not_isWritable] at written
  obtain ⟨lines, stop, log, prints, printed⟩ :=
    run_prints load read parsed rfl (.inr ⟨30, rfl⟩) draws
  obtain ⟨rfl, rfl⟩ := prints.unique (.ended ends)
  exact ⟨log, printed⟩

end Command

end DicePool
