/-
Module: DicePool.Node.Make
Purpose: Nodes that can be rolled: every way of putting a node together, with its checks.
Main exports: Node.ofItems, Node.checkQuantity, Node.withItems, Node.arithmetic?, Node.selection?,
  Node.explosion?
-/
import DicePool.Node.Bound
import DicePool.Text.Upper

/-!
Nodes are only put together here.  A pool never keeps an empty pool among its items.
A modifier is refused before it exists, and of several faults the first of a fixed
order counts: the operator, then the numbers, then the pool.

Whether an explosion is sensible is decided on the bounds of the leaves.  They are asked
for like any other bounds, so `explosion?` is an evaluation: it tells of their steps, even
where it then refuses, and it ends where a leaf reports no bound.
-/

namespace DicePool

/-- The number of dice that a quantity asks for: at least one. -/
def checkQuantity (quantity : Int) : Except Fault Nat :=
  if quantity < 1 then .error (Fault.quantityNotPositive quantity).raised else .ok quantity.toNat

namespace Node

open Evaluation

variable {σ α : Type}

/-- The pool of those items that can be rolled. -/
def ofItems (slot : α) (items : List (Node α)) : Node α :=
  pool slot (items.filter fun item => !item.isEmptyPool)

/-- A pool with further items. Without any that can be rolled it stays the pool it
is, in its own slot. -/
def withItems (slot : α) (items added : List (Node α)) (old : Node α) : Node α :=
  match added.filter fun item => !item.isEmptyPool with
  | [] => old
  | kept => ofItems slot (items ++ kept)

/-- What becomes of a fault that quotes the node when it is put into words. -/
def raise (node : Node α) (fault : Fault) : Fault :=
  if node.isWritable then fault.raised else .numberTooLong

/-- Arithmetic on a node. -/
def arithmetic? (slot : α) (operator : Text) (value : Int) (inner : Node α) :
    Except Fault (Node α) :=
  match Operation.ofText? operator with
  | none => .error (.unknownOperator operator)
  | some operation =>
      if value < 0 then .error (Fault.negativeOperand value).raised
      else if operation = .divide ∧ value = 0 then .error .divisionByZero
      else .ok (arithmetic slot operation value.toNat inner)

/-- A selection among the items of a pool. The case of the operator does not
matter. -/
def selection? (slot : α) (operator : Text) (threshold : Int) (inner : Node α) :
    Except Fault (Node α) :=
  match Selection.ofText? (Text.upper operator) with
  | none => .error (.unknownSelection (Text.upper operator))
  | some s =>
      match inner with
      | pool poolSlot (item :: rest) =>
          let items := item :: rest
          if threshold < 1 then .error (Fault.thresholdNotPositive threshold).raised
          else if s.fits threshold items.length then
            .ok (selection slot s threshold.toNat poolSlot items)
          else .error (Fault.thresholdTooLarge items.length threshold).raised
      | _ => .error (inner.raise (.notAPool inner.spelling))

/-- The first fault of an explosion on dice with these bounds: one that cannot stop,
none that can explode, one that can explode below zero. -/
def explosionFault? (rule : Explosion) (pool : Text) (bounds : List (Int × Int)) :
    Option Fault :=
  let comparison := [rule.comparison.sign]
  if bounds.any fun (low, high) => !rule.canStop low high then
    some (.endlessExplosion pool comparison rule.threshold)
  else if !bounds.any fun (low, high) => rule.canExplode low high then
    some (.deadExplosion pool comparison rule.threshold)
  else if bounds.any fun (low, high) => rule.lowestExplosion low high < 0 then
    some (.negativeExplosion pool comparison rule.threshold)
  else
    none

/-- Asks a leaf for its minimum and then for its maximum. -/
def askBounds (hear : Listener σ α) (leaf : Node α) : Evaluation σ (Int × Int) := do
  let low ← leaf.askBound hear .lowest
  let high ← leaf.askBound hear .highest
  return (low, high)

/-- An explosion of the leaves of a node. -/
def explosion? (hear : Listener σ α) (slot : α) (comparison : Text) (threshold limit : Int)
    (inner : Node α) : Evaluation σ (Node α) :=
  match Comparison.ofText? comparison with
  | none => answer (.error (.unknownComparison comparison))
  | some sign =>
      if limit < 0 then answer (.error (Fault.negativeLimit limit).raised)
      else if inner.leaves.isEmpty then answer (.error .emptyPool)
      else do
        let rule : Explosion := ⟨sign, threshold, limit.toNat⟩
        let bounds ← each (inner.leaves.map (askBounds hear))
        match explosionFault? rule inner.spelling bounds with
        | some fault => answer (.error (inner.raise fault))
        | none => return explosion slot rule inner

end Node

end DicePool
