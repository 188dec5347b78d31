/-
Module: DicePool.Assembly
Purpose: From expressions to nodes that can be rolled.
Main exports: Assembly, Workshop, Workshop.assemble, Workshop.build
-/
import DicePool.Die.Reader
import DicePool.Expression.Reader
import DicePool.Node.Make

/-!
The terms of an expression are built one after the other, and the first fault ends
the work.  A pool without modifiers joins the pool around it die by die, and a pool
that is left with one item is that item.

On the way explosions ask their dice for bounds.  These questions can be followed, so
the work carries the entries that came up, also where it fails.

When all is done the node is written down, and so a node whose text would have a number
that is too long is refused in the end.
-/

namespace DicePool

/-- Work on a node: the entries that came up so far, and what came out. -/
structure Assembly (β : Type) where
  entries : List (Entry Unit)
  result : Except Fault β

namespace Assembly

variable {β γ : Type}

/-- Work that is done. -/
def done (value : β) : Assembly β :=
  ⟨[], .ok value⟩

/-- A step that asks no node anything. -/
def ofExcept (result : Except Fault β) : Assembly β :=
  ⟨[], result⟩

/-- A step that asks nodes something, of which those that are heard are remembered. -/
def ofEvaluation (evaluation : Evaluation (Array (Entry Unit)) β) : Assembly β :=
  let outcome := evaluation.remembered 0
  ⟨outcome.entries, outcome.result⟩

/-- Goes on with what came out, unless it was a fault. -/
def andThen (work : Assembly β) (next : β → Assembly γ) : Assembly γ :=
  match work.result with
  | .error fault => ⟨work.entries, .error fault⟩
  | .ok value =>
      let later := next value
      ⟨work.entries ++ later.entries, later.result⟩

instance : Monad Assembly where
  pure := done
  bind := andThen

/-- Steps may be grouped in any way: the entries come up in the same order. -/
instance : LawfulMonad Assembly :=
  LawfulMonad.mk' Assembly
    (fun work => by rcases work with ⟨_, _ | _⟩ <;> simp [Functor.map, andThen, done])
    (fun _ _ => by simp [pure, bind, andThen, done])
    (fun work next later => by
      rcases work with ⟨_, _ | value⟩
      · rfl
      · cases h : (next value).result <;>
          simp [bind, andThen, h])

@[simp] theorem result_pure (value : β) : (pure value : Assembly β).result = .ok value := rfl

@[simp] theorem result_ofExcept (result : Except Fault β) :
    (ofExcept result).result = result := rfl

/-- Forgetting the entries turns a sequence of steps into a sequence of checks. -/
@[simp] theorem result_bind (work : Assembly β) (next : β → Assembly γ) :
    (work >>= next).result = work.result >>= fun value => (next value).result := by
  cases h : work.result <;> simp [bind, andThen, Except.bind, h]

end Assembly

/-- What a node is built with. -/
structure Workshop where
  /-- The face of dice that are written without one, if it can be written. -/
  defaultFace : Option Text
  /-- The number of explosions of one die, at most. -/
  limit : Int
  /-- Whether the nodes it builds are followed. -/
  heard : Bool
deriving Repr, DecidableEq

namespace Workshop

/-- Applies one modifier. -/
def modify (shop : Workshop) (node : Node Unit) (modifier : Modifier) : Assembly (Node Unit) :=
  match modifier.kind with
  | .arithmetic => .ofExcept (node.arithmetic? () modifier.operator modifier.value)
  | .dropKeep => .ofExcept (node.selection? () modifier.operator modifier.value)
  | .explode =>
      .ofEvaluation
        (node.explosion? (.memory fun _ => shop.heard) () modifier.operator modifier.value
          shop.limit)

/-- Applies modifiers one after the other. -/
def modifyAll (shop : Workshop) (node : Node Unit) : List Modifier → Assembly (Node Unit)
  | [] => pure node
  | modifier :: rest => do
      let modified ← shop.modify node modifier
      shop.modifyAll modified rest

/-- The pool of so many equal dice. -/
def pool (d : Die) (quantity : Int) : Assembly (Node Unit) := do
  let count ← Assembly.ofExcept (checkQuantity quantity)
  return .ofItems () (List.replicate count (.die () d))

/-- The pool of so many dice of a type. -/
def dice (type : Text) (quantity : Int) : Assembly (Node Unit) := do
  let d ← Assembly.ofExcept (Die.read type)
  pool d quantity

/-- What finished terms make together. -/
def gather (parts : List (Node Unit)) : Node Unit :=
  (Node.pool () (parts.flatMap Node.poured)).flatten

mutual

/-- Builds one term. -/
def term (shop : Workshop) : Term → Assembly (Node Unit)
  | .dice type quantity modifiers => do
      let node ← dice type quantity
      let modified ← shop.modifyAll node modifiers
      return modified.flatten
  | .group terms modifiers => do
      let parts ← shop.terms terms
      let modified ← shop.modifyAll (gather parts) modifiers
      return modified.flatten

/-- Builds terms in order. -/
def terms (shop : Workshop) : List Term → Assembly (List (Node Unit))
  | [] => pure []
  | first :: rest => do
      let node ← shop.term first
      let nodes ← shop.terms rest
      return node :: nodes

end

/-- The node of an expression. -/
def assemble (shop : Workshop) (expression : List Term) : Assembly (Node Unit) := do
  let parts ← shop.terms expression
  return gather parts

/-- A finished node, if it can be written down. -/
def finish (node : Node Unit) : Except Fault (Node Unit) :=
  if node.isWritable then .ok node else .error .numberTooLong

/-- The node of a text. -/
def build (shop : Workshop) (text : Text) : Assembly (Node Unit) := do
  let expression ← Assembly.ofExcept (Expression.parse shop.defaultFace text)
  let node ← shop.assemble expression
  Assembly.ofExcept (finish node)

end Workshop

end DicePool
