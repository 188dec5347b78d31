/-
Module: DicePool.Modify
Purpose: What arithmetic, selections and explosions do to numbers, apart from any dice.
Main exports: total, Operation, Operation.raise, Operation.apply, Operation.calculate, Selection,
  Selection.select, Comparison, Explosion
-/
import DicePool.Fault

namespace DicePool

/-- What results add up to. -/
def total (results : List Int) : Int :=
  results.foldr (· + ·) 0

/-- The operations of arithmetic. -/
inductive Operation where
  | add
  | subtract
  | multiply
  | divide
  | power
deriving Repr, DecidableEq

namespace Operation

/-- The sign of an operation. -/
def sign : Operation → Char
  | add => '+'
  | subtract => '-'
  | multiply => '*'
  | divide => '/'
  | power => '^'

/-- The operation with the given sign. -/
def ofText? : Text → Option Operation
  | ['+'] => some add
  | ['-'] => some subtract
  | ['*'] => some multiply
  | ['/'] => some divide
  | ['^'] => some power
  | _ => none

/-- The power of an integer. The powers of zero, one and minus one need no product, so
their exponents may be as great as one likes. -/
def raise (base : Int) (exponent : Nat) : Int :=
  if base = 0 then
    if exponent = 0 then 1 else 0
  else if base = 1 then 1
  else if base = -1 then
    if exponent % 2 = 0 then 1 else -1
  else Int.pow base exponent

/-- Applies an operation to a result. Quotients are cut off towards zero. -/
def apply (operation : Operation) (lhs : Int) (value : Nat) : Int :=
  match operation with
  | add => lhs + value
  | subtract => lhs - value
  | multiply => lhs * value
  | divide => lhs.tdiv value
  | power => raise lhs value

/-- The result of an operation, if it has one. -/
def calculate (operation : Operation) (lhs : Int) (value : Nat) : Except Fault Int :=
  if operation = divide ∧ value = 0 then .error .dividedByZero
  else .ok (operation.apply lhs value)

/-- Whether a greater left-hand side never gives a smaller result. Even powers
fall before they rise. -/
def isMonotone (operation : Operation) (value : Nat) : Bool :=
  !(operation == power && value % 2 == 0)

end Operation

/-- Which results of a pool are selected. -/
inductive Selection where
  | dropHighest
  | dropLowest
  | keepHighest
  | keepLowest
deriving Repr, DecidableEq

namespace Selection

/-- The two letters of a selection. -/
def spelling : Selection → Text
  | dropHighest => ['D', 'H']
  | dropLowest => ['D', 'L']
  | keepHighest => ['K', 'H']
  | keepLowest => ['K', 'L']

/-- The selection with the given letters, which are in upper case. -/
def ofText? : Text → Option Selection
  | ['D', 'H'] => some dropHighest
  | ['D', 'L'] => some dropLowest
  | ['K', 'H'] => some keepHighest
  | ['K', 'L'] => some keepLowest
  | _ => none

/-- Whether a pool of `count` results suffices for the threshold. Dropping must
leave something. -/
def fits (selection : Selection) (threshold : Int) (count : Nat) : Bool :=
  match selection with
  | dropHighest | dropLowest => threshold < count
  | keepHighest | keepLowest => threshold ≤ count

/-- The selected values, in ascending order. -/
def select (selection : Selection) (threshold : Nat) (values : List Int) : List Int :=
  let ordered := values.mergeSort
  match selection with
  | dropLowest => ordered.drop threshold
  | dropHighest => ordered.take (ordered.length - threshold)
  | keepLowest => ordered.take threshold
  | keepHighest => ordered.drop (ordered.length - threshold)

end Selection

/-- How a result is compared with the threshold of an explosion. -/
inductive Comparison where
  | equal
  | greater
  | less
deriving Repr, DecidableEq

namespace Comparison

/-- The sign of a comparison. -/
def sign : Comparison → Char
  | equal => '='
  | greater => '>'
  | less => '<'

/-- The comparison with the given sign. -/
def ofText? : Text → Option Comparison
  | ['='] => some equal
  | ['>'] => some greater
  | ['<'] => some less
  | _ => none

/-- Whether a value compares so with the threshold. -/
def holds (comparison : Comparison) (value threshold : Int) : Bool :=
  match comparison with
  | equal => value = threshold
  | greater => threshold < value
  | less => value < threshold

end Comparison

/-- When a die explodes, and how often at most. -/
structure Explosion where
  comparison : Comparison
  threshold : Int
  /-- The number of rolls of one die after its first. -/
  limit : Nat
deriving Repr, DecidableEq

namespace Explosion

/-- Whether a value makes the die explode. -/
def matches? (rule : Explosion) (value : Int) : Bool :=
  rule.comparison.holds value rule.threshold

/-- Whether a die with these bounds can show a value that ends the explosion. -/
def canStop (rule : Explosion) (low high : Int) : Bool :=
  match rule.comparison with
  | .greater => low ≤ rule.threshold
  | .less => rule.threshold ≤ high
  | .equal => !(low = high && high = rule.threshold)

/-- Whether a die with these bounds can show a value that explodes. Every value
between the bounds counts as possible. -/
def canExplode (rule : Explosion) (low high : Int) : Bool :=
  match rule.comparison with
  | .greater => rule.threshold < high
  | .less => low < rule.threshold
  | .equal => low ≤ rule.threshold && rule.threshold ≤ high

/-- The lowest value that can explode; zero if there is none. -/
def lowestExplosion (rule : Explosion) (low high : Int) : Int :=
  if rule.canExplode low high then
    match rule.comparison with
    | .greater => max (rule.threshold + 1) low
    | .less => low
    | .equal => rule.threshold
  else
    0

/-- How the rule is written. Equality with one needs no comparison. -/
def spelling (rule : Explosion) : Text :=
  if rule.comparison = .equal ∧ rule.threshold = 1 then
    ['!']
  else
    '!' :: rule.comparison.sign :: Numeral.ofInt rule.threshold

end Explosion

end DicePool
