/-
Module: DicePool.Command.Arguments
Purpose: What the arguments of the command line ask for.
Main exports: Given, Arguments, Parsed, Arguments.classify, Arguments.parse
-/
import DicePool.Text.Numeral

/-!
Arguments are expressions or options.  An option may be abbreviated as long as it can
be told from the others, and takes its value from the next argument or from behind an
equals sign.  All expressions stand in one place: between two options, or at an end.
Two dashes end the options, and behind an equals sign they stand for no value.

Every argument is classified before any is used, so an ambiguous abbreviation counts
even behind a call for help.
-/

namespace DicePool

/-- The options. -/
inductive CommandOption where
  | help
  | times
  | settings
  | trace
deriving Repr, DecidableEq

namespace CommandOption

/-- Every spelling of every option. -/
def spellings : List (Text × CommandOption) :=
  [("-h".toList, .help), ("--help".toList, .help), ("--times".toList, .times),
   ("--settings".toList, .settings), ("--trace".toList, .trace)]

/-- The option with exactly this spelling. -/
def ofText? (s : Text) : Option CommandOption :=
  (spellings.find? (·.1 == s)).map (·.2)

/-- Whether the option is followed by a value. -/
def takesValue : CommandOption → Bool
  | times | settings => true
  | help | trace => false

end CommandOption

/-- What an argument is, apart from its place. -/
inductive ArgumentClass where
  | positional
  /-- An option, and what stands directly behind it or behind its equals sign.
  `isLetter` tells that the option is written as one letter after one dash. -/
  | option (option : CommandOption) (isLetter : Bool) (value : Option Text)
  | unknownOption
  | ambiguous
  /-- Two dashes. -/
  | separator
deriving Repr, DecidableEq

/-- What the arguments give for an option. -/
inductive Given (β : Type) where
  /-- They do not mention it. -/
  | absent
  | value (value : β)
  /-- They mention it, with two dashes in the place of a value. -/
  | void
deriving Repr, DecidableEq

/-- What the command line asks for. -/
structure Arguments where
  expressions : List Text
  times : Given Int
  /-- The name of a settings file. -/
  settings : Given Text
  trace : Bool
deriving Repr, DecidableEq

/-- How reading the arguments ends. -/
inductive Parsed where
  | run (arguments : Arguments)
  /-- The program ends at once, with this code. -/
  | exit (code : Nat)
deriving Repr, DecidableEq

namespace Arguments

/-- The code after a call for help. -/
def helpCode : Nat := 0

/-- The code after arguments that make no sense. -/
def usageCode : Nat := 2

/-- What stands before and behind the first equals sign. -/
def splitValue (s : Text) : Text × Option Text :=
  match s.dropWhile (· != '=') with
  | _ :: value => (s.takeWhile (· != '='), some value)
  | [] => (s, none)

/-- Whether an argument is a negative number, with or without a fraction. It may end
in a line break. -/
def isNegativeNumber : Text → Bool
  | '-' :: rest =>
      let body := if rest.getLast? = some '\n' then rest.dropLast else rest
      let isNumber (s : Text) : Bool := !s.isEmpty && s.all Text.isDecimal
      match body.dropWhile Text.isDecimal with
      | [] => !body.isEmpty
      | '.' :: fraction => isNumber fraction
      | _ => false
  | _ => false

/-- The options that an argument with two dashes may abbreviate. -/
def abbreviated (s : Text) : List CommandOption :=
  (CommandOption.spellings.filter fun spelling => s.isPrefixOf spelling.1).map (·.2)

/-- Whether a text begins like an option of one letter. -/
def isLetterName : Text → Bool
  | '-' :: '-' :: _ => false
  | _ => true

/-- What an argument is that begins with a dash and is no option as it stands. -/
def classifyDashed (s : Text) : ArgumentClass :=
  let rest : ArgumentClass :=
    if isNegativeNumber s || s.contains ' ' then .positional else .unknownOption
  match s with
  | '-' :: '-' :: _ =>
      let (name, value) := splitValue s
      match abbreviated name with
      | [] => rest
      | [option] => .option option false value
      | _ => .ambiguous
  | a :: b :: glued =>
      match CommandOption.ofText? [a, b] with
      | some option => .option option true (some glued)
      | none => rest
  | _ => rest

/-- What an argument is. -/
def classify (s : Text) : ArgumentClass :=
  match s with
  | '-' :: _ :: _ =>
      match CommandOption.ofText? s with
      | some option => .option option (isLetterName s) none
      | none =>
          match splitValue s with
          | (name, some value) =>
              match CommandOption.ofText? name with
              | some option => .option option (isLetterName name) (some value)
              | none => classifyDashed s
          | (_, none) => classifyDashed s
  | _ => .positional

/-- The classes of all arguments. Behind two dashes everything is an expression. -/
def classifyAll : List Text → List (ArgumentClass × Text)
  | [] => []
  | s :: rest =>
      if s = ['-', '-'] then (.separator, s) :: rest.map fun t => (.positional, t)
      else (classify s, s) :: classifyAll rest

/-- Whether an argument is part of a row of expressions. -/
def isRow : ArgumentClass → Bool
  | .positional | .separator => true
  | _ => false

/-- Whether the text behind the letter that calls for help is a row of further calls. -/
def isHelpRow (s : Text) : Bool :=
  !s.isEmpty && s.all (· == 'h')

/-- What was read so far. -/
structure Progress where
  expressions : Option (List Text)
  /-- Whether there was something that fits nowhere. -/
  hasExtra : Bool
  times : Given Int
  settings : Given Text
  trace : Bool

/-- Reads a row of expressions. Only the first row counts, and it must hold one. -/
def Progress.takeRow (progress : Progress) (row : List (ArgumentClass × Text)) : Progress :=
  let isReal := row.any fun argument => argument.1 == .positional
  if row.isEmpty then progress
  else if progress.expressions.isNone && isReal then
    let kept := row.filter fun argument => argument.1 == .positional
    { progress with expressions := some (kept.map (·.2)) }
  else { progress with hasExtra := true }

/-- What the text in the place of a value gives. `read` is applied to a value only. -/
def given {β : Type} (read : Text → Option β) (text : Text) : Option (Given β) :=
  if text = ['-', '-'] then some .void else (read text).map .value

/-- Uses an option with its value. -/
def Progress.setValue (progress : Progress) (option : CommandOption) (value : Text) :
    Option Progress :=
  match option with
  | .times => (given Numeral.readInt? value).map fun times => { progress with times }
  | _ => (given some value).map fun settings => { progress with settings }

/-- What the whole command line asks for, once all arguments are read. -/
def Progress.finish (progress : Progress) : Parsed :=
  match progress.expressions with
  | some expressions =>
      if progress.hasExtra then .exit usageCode
      else .run ⟨expressions, progress.times, progress.settings, progress.trace⟩
  | none => .exit usageCode

/-- Uses the arguments from left to right. Each call uses up at least one, so as much
fuel as there are arguments never runs out. -/
def consume : Nat → Progress → List (ArgumentClass × Text) → Parsed
  | _, progress, [] => progress.finish
  | 0, _, _ => .exit usageCode
  | fuel + 1, progress, (kind, s) :: rest =>
      match kind with
      | .positional | .separator =>
          let row := ((kind, s) :: rest).takeWhile fun argument => isRow argument.1
          let after := ((kind, s) :: rest).dropWhile fun argument => isRow argument.1
          consume fuel (progress.takeRow row) after
      | .unknownOption => consume fuel { progress with hasExtra := true } rest
      | .ambiguous => .exit usageCode
      | .option option isLetter value =>
          if option.takesValue then
            match value, rest with
            | some value, _ =>
                match progress.setValue option value with
                | some progress => consume fuel progress rest
                | none => .exit usageCode
            | none, (.positional, value) :: rest =>
                match progress.setValue option value with
                | some progress => consume fuel progress rest
                | none => .exit usageCode
            | none, _ => .exit usageCode
          else
            match option, value with
            | .trace, none => consume fuel { progress with trace := true } rest
            | .help, none => .exit helpCode
            | .help, some value =>
                if isLetter && isHelpRow value then .exit helpCode else .exit usageCode
            | _, _ => .exit usageCode

/-- What the arguments ask for. -/
def parse (arguments : List Text) : Parsed :=
  let classes := classifyAll arguments
  if classes.any fun argument => argument.1 == .ambiguous then .exit usageCode
  else consume classes.length ⟨none, false, .absent, .absent, false⟩ classes

end Arguments

end DicePool
