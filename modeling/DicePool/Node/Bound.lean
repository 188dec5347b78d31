/-
Module: DicePool.Node.Bound
Purpose: The least and the greatest value that a node reports for its rolls.
Main exports: Extreme, unboundedTotal, Die.reported, evenBase, Node.askBound, Node.reported
-/
import DicePool.Node.Evaluation

/-!
A bound is worked out from the bounds of the parts.  An even power falls and
rises, so both of its bounds need both bounds of the base.  An explosion has no
greatest value, and answers a fixed number that stands for that.
-/

namespace DicePool

/-- The two ends of a range. -/
inductive Extreme where
  | lowest
  | highest
deriving Repr, DecidableEq

/-- What a node is asked for when its extreme is wanted. -/
def Extreme.measure : Extreme → Measure
  | .lowest => .minimum
  | .highest => .maximum

/-- The number that stands for the absence of an upper bound. -/
def unboundedTotal : Int :=
  9223372036854775807

/-- The face at one end of a die. -/
def Die.extreme (d : Die) : Extreme → Int
  | .lowest => d.lowest
  | .highest => d.highest

/-- The face at one end of a die. Of no faces there is none. -/
def Die.reported (d : Die) (side : Extreme) : Except Fault Int :=
  match d with
  | .custom [] => .error .noFaces
  | d => .ok (d.extreme side)

/-- The value in a range whose even power is extreme: nearest to zero for the
lowest, farthest for the highest. Of two equally near ends it is the lower. -/
def evenBase (side : Extreme) (low high : Int) : Int :=
  match side with
  | .lowest =>
      if low ≤ 0 && 0 ≤ high then 0
      else if low.natAbs ≤ high.natAbs then low else high
  | .highest => if high.natAbs ≤ low.natAbs then low else high

namespace Node

open Evaluation

variable {σ α : Type}

mutual

/-- Works out an extreme of the node. -/
def askBound (hear : Listener σ α) : Node α → Extreme → Evaluation σ Int
  | die slot d, side => do
      let value ← answer (d.reported side)
      tell hear (die slot d) side.measure (.sum [value]) value
  | pool slot items, side => do
      let values ← askBoundEach hear items side
      tell hear (pool slot items) side.measure (.sum values) (total values)
  | arithmetic slot operation value inner, side =>
      let node := arithmetic slot operation value inner
      if operation.isMonotone value then do
        let base ← askBound hear inner side
        let result ← answer (operation.calculate base value)
        tell hear node side.measure (.calculation base operation value) result
      else do
        let low ← askBound hear inner .lowest
        let high ← askBound hear inner .highest
        let lhs := evenBase side low high
        let result ← answer (operation.calculate lhs value)
        tell hear node side.measure (.calculation lhs operation value) result
  | selection slot s threshold poolSlot items, side => do
      let values ← askBoundEach hear items side
      let kept := s.select threshold values
      tell hear (selection slot s threshold poolSlot items) side.measure (.sum kept) (total kept)
  | explosion slot rule inner, .lowest => do
      let least ← askBound hear inner .lowest
      tell hear (explosion slot rule inner) .minimum (.sum [least]) least
  | explosion slot rule inner, .highest =>
      tell hear (explosion slot rule inner) .maximum .unbounded unboundedTotal

/-- Works out an extreme of each node, in order. -/
def askBoundEach (hear : Listener σ α) : List (Node α) → Extreme → Evaluation σ (List Int)
  | [], _ => pure []
  | node :: rest, side => do
      let first ← askBound hear node side
      let others ← askBoundEach hear rest side
      return first :: others

end

/-- The extreme that the node reports, or why it reports none. -/
def reported (node : Node α) (side : Extreme) : Except Fault Int :=
  ((node.askBound (.memory fun _ => false) side).remembered 0).result

end Node

end DicePool
