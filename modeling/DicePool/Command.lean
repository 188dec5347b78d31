/-
Module: DicePool.Command
Purpose: The command line as a function: what it prints, what it logs and how it ends.
Main exports: Ending, Verdict, Told, Command.openSettings, Command.tell, Command.tellAll,
  Command.run
-/
import DicePool.Assembly
import DicePool.Command.Arguments
import DicePool.Node.Ask
import DicePool.Settings

/-!
Every expression is answered by one line: its rolls and bounds, or why it has none.
An expression that is refused draws nothing, so the lines of the others do not depend
on it.  Nor do they depend on whether the evaluation is followed in the log.

Some faults are not explained, and end the command where they arise: settings that
cannot be used at all, a number of rolls that is missing when the first is due, and a
number that is too long to be read or written.  An expression with which the command ends
has no line.
-/

namespace DicePool

/-- How the command line ends. -/
inductive Ending where
  /-- The arguments ended it. -/
  | exited (code : Nat)
  /-- It went through all expressions. -/
  | finished (code : Nat) (output : Codes) (log : String)
  /-- A fault ended it that is not explained to the user. -/
  | stopped (fault : Fault) (output : Codes) (log : String)
deriving Repr

/-- What becomes of one expression. -/
inductive Verdict where
  | rolled
  /-- It is refused, and its line says why. -/
  | refused
  /-- It ends the command. -/
  | stopped (fault : Fault)
deriving Repr, DecidableEq

/-- What there is to tell about one expression. -/
structure Told where
  line : Codes
  log : List String
  /-- The position of the first draw that is still unread. -/
  next : Nat
  verdict : Verdict
deriving Repr

namespace Command

/-- The level at which everything about the evaluation is logged. -/
def debugLevel : Int := 10

/-- The name under which the evaluation steps are logged. -/
def stepLogger : String := "dicenotation"

/-- The name under which finished nodes are logged. -/
def builtLogger : String := "dicenotation.factory"

/-- A line of the log. -/
def logLine (logger message : String) : String :=
  "DEBUG:" ++ logger ++ ":" ++ message ++ "\n"

/-- A line that explains a fault. -/
def faultLine (fault : Fault) : Codes :=
  Codes.ofString "error: " ++ fault.message ++ Codes.ofString "\n"

/-- The settings of a file, or those that hold without one. -/
def openSettings (load : Loader) (read : Text → Except Fault Text) :
    Given Text → Except Fault Settings
  | .absent => .ok Settings.default
  | .void => .error .optionWithoutValue
  | .value file => do
      let content ← read file
      Settings.ofText load file content

/-- What all expressions of a command line share. -/
structure Setup where
  shop : Workshop
  /-- The level of the log. -/
  level : Int
  times : Given Int

/-- The lines of a step in the log. A message that cannot be put together has none. -/
def stepLines (entry : Entry Unit) : List String :=
  entry.report.text.toList.map (logLine stepLogger)

/-- Logs the steps, if they are followed. The node of a step is written at once, and the step
is refused where it has a number that is too long. -/
def logging (heard : Bool) : Listener (Array String) Unit :=
  fun log entry =>
    if heard then
      if entry.node.isWritable then .ok (log ++ stepLines entry) else .error .numberTooLong
    else .ok log

/-- The log after some steps, and the fault of the first that is refused. -/
def logAll (heard : Bool) (log : Array String) : List (Entry Unit) → Option Fault × Array String
  | [] => (none, log)
  | entry :: rest =>
      match logging heard log entry with
      | .ok log => logAll heard log rest
      | .error fault => (some fault, log)

/-- The numerals of numbers, unless one of them is too long. -/
def writeAll (numbers : List Int) : Except Fault (List Text) :=
  match numbers.mapM Numeral.write? with
  | some numerals => .ok numerals
  | none => .error .numberTooLong

/-- The line of an expression that was rolled. -/
def rollLine (node : Node Unit) (rolls bounds : List Text) : Codes :=
  Codes.ofString (String.ofList node.spelling ++ ": "
    ++ String.ofList (Text.join [',', ' '] rolls)
    ++ " (min " ++ String.ofList (Text.join ", max ".toList bounds) ++ ")\n")

/-- Rolls the node and asks for its bounds, and writes the line. -/
def rolled (heard : Bool) (draws : Draws) (node : Node Unit) (times : Nat) :
    Evaluation (Array String) Codes := do
  let hear := logging heard
  let rolls ← Evaluation.each (List.replicate times (node.ask hear draws .roll))
  let numerals ← Evaluation.answer (writeAll rolls)
  let low ← node.ask hear draws .minimum
  let high ← node.ask hear draws .maximum
  let bounds ← Evaluation.answer (writeAll [low, high])
  return rollLine node numerals bounds

/-- How often each expression is rolled: once, unless the arguments say otherwise. -/
def rollCount : Given Int → Except Fault Nat
  | .absent => .ok 1
  | .value times => .ok times.toNat
  | .void => .error .optionWithoutValue

/-- The line in the log on a finished node, if the log is open for it. -/
def builtLines (level : Int) (node : Node Unit) (text : Text) : List String :=
  if level ≤ debugLevel then
    [logLine builtLogger
      ("built " ++ Fault.quoted node.spelling ++ " from " ++ Fault.quoted text)]
  else []

/-- Answers one expression, with the draws from a position on. -/
def tell (setup : Setup) (draws : Draws) (position : Nat) (text : Text) : Told :=
  let work := setup.shop.build text
  match logAll setup.shop.heard #[] work.entries with
  | (some fault, log) => ⟨[], log.toList, position, .stopped fault⟩
  | (none, log) =>
      match work.result with
      | .error fault =>
          if fault.kind.isNamed then ⟨faultLine fault, log.toList, position, .refused⟩
          else ⟨[], log.toList, position, .stopped fault⟩
      | .ok node =>
          let log := log ++ builtLines setup.level node text
          match rollCount setup.times with
          | .error fault => ⟨[], log.toList, position, .stopped fault⟩
          | .ok times =>
              match (rolled setup.shop.heard draws node times).run ⟨position, log⟩ with
              | (.ok line, standing) => ⟨line, standing.known.toList, standing.position, .rolled⟩
              | (.error fault, standing) =>
                  ⟨[], standing.known.toList, standing.position, .stopped fault⟩

/-- Answers expressions in order, each on the draws that those before it have left. -/
def tellAll (setup : Setup) (draws : Draws) : Nat → List Text → List Told
  | _, [] => []
  | position, text :: rest =>
      let told := tell setup draws position text
      match told.verdict with
      | .stopped _ => [told]
      | _ => told :: tellAll setup draws told.next rest

/-- The fault that ended the command, if one did. -/
def stop? (answers : List Told) : Option Fault :=
  answers.findSome? fun told =>
    match told.verdict with
    | .stopped fault => some fault
    | _ => none

/-- The end of a command line whose expressions were answered so. -/
def finish (answers : List Told) : Ending :=
  let output := answers.flatMap (·.line)
  let log := String.join (answers.flatMap (·.log))
  match stop? answers with
  | some fault => .stopped fault output log
  | none => .finished (if answers.any (·.verdict == .refused) then 1 else 0) output log

/-- Runs the command line with these settings. -/
def runWith (settings : Settings) (draws : Draws) (arguments : Arguments) : Ending :=
  let heard := arguments.trace || settings.trace.isTruthy
  let level := if heard then .ok debugLevel else Settings.logLevel? settings.logLevel
  match level with
  | .error fault => .stopped fault [] ""
  | .ok level =>
      let shop : Workshop :=
        ⟨settings.defaultSides.spelling?, settings.maxExplosions.value, heard⟩
      finish (tellAll ⟨shop, level, arguments.times⟩ draws 0 arguments.expressions)

/-- Runs the command line. `read` opens files, and `load` reads the settings in them. -/
def run (load : Loader) (read : Text → Except Fault Text) (draws : Draws)
    (arguments : List Text) : Ending :=
  match Arguments.parse arguments with
  | .exit code => .exited code
  | .run arguments =>
      match openSettings load read arguments.settings with
      | .ok settings => runWith settings draws arguments
      | .error fault =>
          if fault.kind.isExplained then .finished 1 (faultLine fault) ""
          else .stopped fault [] ""

end Command

end DicePool
