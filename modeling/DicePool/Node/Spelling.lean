/-
Module: DicePool.Node.Spelling
Purpose: How a node is written, with no more parentheses than reading it back needs.
Main exports: Written, Share, Node.written, Node.spelling, Node.wraps, Node.innerSpelling,
  Node.numbers, Node.isWritable, Node.spelling?
-/
import DicePool.Node

/-!
A term has room for one selection or explosion and for two operations after it.
So beside its text a written node carries how much of that room its end has used.
What is written inside a modifier is put in parentheses where the modifier would
not find room, or where a plus sign in it would split the term.

All numbers in a text are written, or else there is no text: `Node.spelling?`.
-/

namespace DicePool

/-- The text of a node, and what stands at its end. -/
structure Written where
  text : Text
  /-- Whether the last term has a selection or an explosion. -/
  algorithm : Bool
  /-- How many operations end the last term. -/
  operations : Nat
deriving Repr, DecidableEq

namespace Written

/-- Whether the text must be put in parentheses before an operation. -/
def wrapsForOperation (w : Written) : Bool :=
  w.text.contains '+' || 2 ≤ w.operations

/-- Whether the text must be put in parentheses before a selection or an
explosion. -/
def wrapsForAlgorithm (w : Written) : Bool :=
  w.text.contains '+' || w.algorithm || 0 < w.operations

/-- The text, in parentheses if `wraps`. -/
def inParentheses (wraps : Bool) (s : Text) : Text :=
  if wraps then '(' :: s ++ [')'] else s

/-- A written node with an operation after it. -/
def operate (w : Written) (operation : Operation) (value : Nat) : Written :=
  let text := inParentheses w.wrapsForOperation w.text
    ++ operation.sign :: Numeral.ofNat value
  if w.wrapsForOperation then ⟨text, false, 1⟩ else ⟨text, w.algorithm, w.operations + 1⟩

/-- A written node with a selection or an explosion after it. -/
def treat (w : Written) (algorithm : Text) : Written :=
  ⟨inParentheses w.wrapsForAlgorithm w.text ++ algorithm, true, 0⟩

end Written

/-- Some items of a pool that are written together. -/
structure Share where
  text : Text
  isDie : Bool
  count : Nat
deriving Repr, DecidableEq

namespace Share

/-- A single item has no count before it. -/
def spelling (share : Share) : Text :=
  if share.count = 1 then share.text else Numeral.ofNat share.count ++ share.text

/-- Whether the share holds the dice with this text. -/
def isOfDice (text : Text) (share : Share) : Bool :=
  share.isDie && share.text == text

/-- Puts an item before the shares of those after it. A die takes the dice that are
written like it to its place. Anything else stands alone: with a count before it, it
would read as one modified pool. -/
def add (isDie : Bool) (text : Text) (shares : List Share) : List Share :=
  if isDie then
    match shares.find? (isOfDice text) with
    | some share => ⟨text, true, share.count + 1⟩ :: shares.eraseP (isOfDice text)
    | none => ⟨text, true, 1⟩ :: shares
  else
    ⟨text, false, 1⟩ :: shares

/-- The shares of a pool with the given items. -/
def ofItems (items : List (Bool × Text)) : List Share :=
  items.foldr (fun item => add item.1 item.2) []

end Share

namespace Written

/-- The text of a pool with the given items. An empty pool is worth zero. -/
def poolText (items : List (Bool × Written)) : Text :=
  let shares := Share.ofItems (items.map fun item => (item.1, item.2.text))
  if shares.isEmpty then ['0'] else Text.join ['+'] (shares.map Share.spelling)

/-- The written form of a pool. A pool of one ends as its item does. -/
def pool (items : List (Bool × Written)) : Written :=
  match items with
  | [(_, w)] => ⟨poolText items, w.algorithm, w.operations⟩
  | _ => ⟨poolText items, false, 0⟩

end Written

namespace Node

variable {α : Type}

mutual

/-- How the node is written, and what stands at its end. -/
def written : Node α → Written
  | die _ d => ⟨d.spelling, false, 0⟩
  | pool _ items => Written.pool (writtenEach items)
  | arithmetic _ operation value inner => (written inner).operate operation value
  | selection _ s threshold _ items =>
      (Written.pool (writtenEach items)).treat (s.spelling ++ Numeral.ofNat threshold)
  | explosion _ rule inner => (written inner).treat rule.spelling

/-- The written forms of several nodes, each with whether it is a die. -/
def writtenEach : List (Node α) → List (Bool × Written)
  | [] => []
  | node :: rest => (node.isDie, written node) :: writtenEach rest

end

theorem writtenEach_eq_map (items : List (Node α)) :
    writtenEach items = items.map fun node => (node.isDie, node.written) := by
  induction items with
  | nil => rfl
  | cons node rest ih => rw [writtenEach, ih, List.map_cons]

/-- How the node is written in an expression. -/
def spelling (node : Node α) : Text :=
  node.written.text

/-- Whether a modifier puts the node it is applied to in parentheses. -/
def wraps : Node α → Bool
  | arithmetic _ _ _ inner => inner.written.wrapsForOperation
  | selection _ _ _ poolSlot items => (pool poolSlot items).written.wrapsForAlgorithm
  | explosion _ _ inner => inner.written.wrapsForAlgorithm
  | _ => false

/-- How a modifier writes the node it is applied to. -/
def innerSpelling (node inner : Node α) : Text :=
  Written.inParentheses node.wraps inner.spelling

/-! ### Numbers that are too long -/

/-- The counts that stand before the shares of a pool with the given items. -/
def counts (items : List (Bool × Written)) : List Int :=
  (Share.ofItems (items.map fun item => (item.1, item.2.text))).map fun share => (share.count : Int)

mutual

/-- The numbers that stand in the text of the node. A count of one counts as well,
although it is left out. -/
def numbers : Node α → List Int
  | die _ d => d.numbers
  | pool _ items => counts (writtenEach items) ++ numbersEach items
  | arithmetic _ _ value inner => value :: numbers inner
  | selection _ _ threshold _ items =>
      threshold :: (counts (writtenEach items) ++ numbersEach items)
  | explosion _ rule inner => rule.threshold :: numbers inner

/-- The numbers that stand in the texts of several nodes. -/
def numbersEach : List (Node α) → List Int
  | [] => []
  | node :: rest => numbers node ++ numbersEach rest

end

theorem numbersEach_eq_flatMap (items : List (Node α)) :
    numbersEach items = items.flatMap numbers := by
  induction items with
  | nil => rfl
  | cons node rest ih => rw [numbersEach, ih, List.flatMap_cons]

/-- Whether all numbers in the text of the node can be written. -/
def isWritable (node : Node α) : Bool :=
  node.numbers.all Numeral.isWritable

/-- The text of the node, unless a number in it is too long. -/
def spelling? (node : Node α) : Option Text :=
  if node.isWritable then some node.spelling else none

end Node

end DicePool
