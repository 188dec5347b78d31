/-
Module: DicePool.Node.Ask
Purpose: Asking a node for several things in a row.
Main exports: Node.ask, Node.reply, Outcomes, Node.replyAll
-/
import DicePool.Node.Bound
import DicePool.Node.Roll

/-!
Where a question ends without a result, further questions can still be asked: they go on with
the draws that are left.
-/

namespace DicePool

/-- What several questions have come to, one after the other. -/
structure Outcomes (α : Type) where
  results : List (Except Fault Int)
  /-- The position of the first number that is still unread. -/
  next : Nat
  entries : List (Entry α)

namespace Node

variable {σ α : Type}

/-- Asks the node for one measure. Only a roll reads from the stream. -/
def ask (hear : Listener σ α) (draws : Draws) (node : Node α) : Measure → Evaluation σ Int
  | .roll => node.askRoll hear draws
  | .minimum => node.askBound hear .lowest
  | .maximum => node.askBound hear .highest

/-- Asks the node for one measure, and remembers the steps of those slots that are heard. -/
def reply (heard : α → Bool) (draws : Draws) (node : Node α) (measure : Measure)
    (position : Nat) : Outcome α Int :=
  (node.ask (.memory heard) draws measure).remembered position

/-- Asks the node for several measures, one after the other. -/
def replyAll (heard : α → Bool) (draws : Draws) (node : Node α) : List Measure → Nat → Outcomes α
  | [], position => ⟨[], position, []⟩
  | measure :: rest, position =>
      let first := node.reply heard draws measure position
      let others := replyAll heard draws node rest first.next
      ⟨first.result :: others.results, others.next, first.entries ++ others.entries⟩

end Node

end DicePool
