/-
Module: DicePool.Trace
Purpose: The record of one evaluation step: which node was asked what, and what it added up.
Main exports: Measure, Line, Line.isWritable, Entry, Report, Entry.report, Report.text
-/
import DicePool.Node.Spelling

namespace DicePool

/-- What a node can be asked for. -/
inductive Measure where
  | roll
  | minimum
  | maximum
deriving Repr, DecidableEq

/-- The name of a measure in a report. -/
def Measure.name : Measure → String
  | .roll => "roll"
  | .minimum => "minimum"
  | .maximum => "maximum"

/-- How a node came by its result. -/
inductive Line where
  /-- The result is the sum of these values. -/
  | sum (values : List Int)
  /-- The result is an operation on the result of the inner node. -/
  | calculation (lhs : Int) (operation : Operation) (value : Nat)
  /-- There is no bound, and the result stands for that. -/
  | unbounded
deriving Repr, DecidableEq

namespace Line

/-- The line as it is shown. -/
def text : Line → Text
  | sum values => Text.join [' ', '+', ' '] (values.map Numeral.ofInt)
  | calculation lhs operation value =>
      Numeral.ofInt lhs ++ [' ', operation.sign, ' '] ++ Numeral.ofNat value
  | unbounded => ['u', 'n', 'b', 'o', 'u', 'n', 'd', 'e', 'd']

/-- Whether all numbers in the line can be written. -/
def isWritable : Line → Bool
  | sum values => values.all Numeral.isWritable
  | calculation lhs _ value => Numeral.isWritable lhs && Numeral.isWritable value
  | unbounded => true

end Line

/-- One evaluation step of a node, whose line was written. -/
structure Entry (α : Type) where
  node : Node α
  measure : Measure
  line : Line
  result : Int
deriving Repr

/-- An evaluation step as it is shown, without the node itself. -/
structure Report where
  source : String
  measure : Measure
  /-- The text of the node, if it has one. -/
  spelling : Option Text
  line : Text
  result : Int
deriving Repr, DecidableEq

namespace Report

/-- The report in one line, unless a number in it is too long. -/
def text (report : Report) : Option String := do
  let spelling ← report.spelling
  let result ← Numeral.write? report.result
  return "[" ++ report.source ++ "] - " ++ String.ofList spelling ++ " : "
    ++ String.ofList report.line ++ " = " ++ String.ofList result

end Report

namespace Entry

variable {α : Type}

/-- What is shown of an evaluation step. -/
def report (entry : Entry α) : Report where
  source := entry.node.title ++ "." ++ entry.measure.name
  measure := entry.measure
  spelling := entry.node.spelling?
  line := entry.line.text
  result := entry.result

end Entry

end DicePool
