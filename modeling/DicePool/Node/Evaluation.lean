/-
Module: DicePool.Node.Evaluation
Purpose: Evaluations: they read draws, tell of their steps, and may end where one has no result.
Main exports: Standing, Listener, Evaluation, Evaluation.answer, Evaluation.tell, Evaluation.draw,
  Evaluation.each, Evaluation.repeated, Evaluation.exploded, Listener.memory, Outcome,
  Evaluation.remembered
-/
import DicePool.Draws
import DicePool.Trace

/-!
An evaluation goes on from where it stands.  It reads the stream of draws from a position on,
and tells a listener of each step as soon as the step is made.

First the line of a step is written, whoever listens.  Where a number in it is too long the
evaluation ends, and nobody is told of the step.  The draws that were read until then stay
read, and the steps until then have been told.
-/

namespace DicePool

/-- Where an evaluation stands: the position of the first number that is still unread, and
what the listener has made of the steps so far. -/
structure Standing (σ : Type) where
  position : Nat
  known : σ
deriving Repr

/-- What a listener makes of a step, on top of what it has made of those before. -/
abbrev Listener (σ α : Type) := σ → Entry α → Except Fault σ

/-- An evaluation that goes on from where it stands. -/
abbrev Evaluation (σ β : Type) := ExceptT Fault (StateM (Standing σ)) β

namespace Evaluation

variable {σ α β : Type}

/-- A result that takes no step. -/
def answer (result : Except Fault β) : Evaluation σ β :=
  ExceptT.mk fun standing => (result, standing)

/-- Reads the next number of the stream. -/
def draw (draws : Draws) : Evaluation σ Nat :=
  ExceptT.mk fun standing =>
    (.ok (draws standing.position), ⟨standing.position + 1, standing.known⟩)

/-- Writes the line of a step, tells the listener of the step, and answers its result. -/
def tell (hear : Listener σ α) (node : Node α) (measure : Measure) (line : Line) (result : Int) :
    Evaluation σ Int :=
  ExceptT.mk fun standing =>
    if line.isWritable then
      match hear standing.known ⟨node, measure, line, result⟩ with
      | .ok known => (.ok result, ⟨standing.position, known⟩)
      | .error fault => (.error fault, standing)
    else
      (.error .numberTooLong, standing)

/-- One evaluation after the other. -/
def each : List (Evaluation σ β) → Evaluation σ (List β)
  | [] => pure []
  | evaluation :: rest => do
      let first ← evaluation
      let others ← each rest
      return first :: others

/-- Once, and then again for as long as the last value matches, at most `limit` times more. -/
def repeated (again : Int → Bool) (evaluation : Evaluation σ Int) : Nat → Evaluation σ (List Int)
  | 0 => do
      let only ← evaluation
      return [only]
  | limit + 1 => do
      let first ← evaluation
      if again first then
        let others ← repeated again evaluation limit
        return first :: others
      else
        return [first]

/-- One after the other, each with all its repetitions before the next. -/
def exploded (rule : Explosion) : List (Evaluation σ Int) → Evaluation σ (List Int)
  | [] => pure []
  | evaluation :: rest => do
      let first ← repeated rule.matches? evaluation rule.limit
      let others ← exploded rule rest
      return first ++ others

end Evaluation

/-! ### Remembering -/

/-- Remembers the steps of those slots that are heard. -/
def Listener.memory {α : Type} (heard : α → Bool) : Listener (Array (Entry α)) α :=
  fun entries entry => .ok (if heard entry.node.slot then entries.push entry else entries)

/-- What an evaluation has come to, and the steps of it that are remembered. -/
structure Outcome (α β : Type) where
  result : Except Fault β
  /-- The position of the first number that is still unread. -/
  next : Nat
  entries : List (Entry α)

/-- The outcome of an evaluation from a position on, by a memory that is empty at first. -/
def Evaluation.remembered {α β : Type} (evaluation : Evaluation (Array (Entry α)) β)
    (position : Nat) : Outcome α β :=
  let (result, standing) := evaluation.run ⟨position, #[]⟩
  ⟨result, standing.position, standing.known.toList⟩

end DicePool
