/-
Module: DicePool.Log
Purpose: Evaluation steps as records of a log that is filtered by level.
Main exports: LogRecord, Log.isOpen, Log.append
-/
import DicePool.Node.Evaluation

namespace DicePool

/-- A line of a log, with the level at which it was written. -/
structure LogRecord where
  level : Int
  /-- The message, unless a number in it is too long. -/
  message : Option String
deriving Repr, DecidableEq

namespace Log

/-- A logger passes on what is written at its own level or above. Nothing is ever passed
on that is written at level zero or below. -/
def isOpen (loggerLevel level : Int) : Bool :=
  0 < level && loggerLevel ≤ level

/-- Writes the step down, if the log is open at this level. Its node is written at once, and
the step is refused where that has a number that is too long; the rest of the message is put
together later on. -/
def append {α : Type} (loggerLevel level : Int) : Listener (Array LogRecord) α :=
  fun records entry =>
    if isOpen loggerLevel level then
      if entry.node.isWritable then .ok (records.push ⟨level, entry.report.text⟩)
      else .error .numberTooLong
    else .ok records

end Log

end DicePool
