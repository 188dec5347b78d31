/-
Module: DicePool.Session.Request
Purpose: What can be asked of a session, and what it answers.
Main exports: Recipe, Request, Answer
-/
import DicePool.Trace

namespace DicePool

/-- A way of making a node. Existing nodes are given by their names. -/
inductive Recipe where
  | sided (sides : Int)
  | sidedText (text : Text)
  | fudge
  | percentile
  | custom (faces : List Int)
  | customText (text : Text)
  | pool (items : List String)
  /-- A pool of a node and of copies of it. -/
  | repeated (item : String) (quantity : Int)
  | arithmetic (inner : String) (operator : Text) (value : Int)
  | selection (inner : String) (operator : Text) (threshold : Int)
  | explosion (inner : String) (comparison : Text) (threshold limit : Int)
  /-- The node of an expression. -/
  | expression (text : Text) (defaultFace : Option Text) (limit : Int)
deriving Repr

/-- A request to a session. -/
inductive Request where
  /-- Makes a node and gives it a name. The node is followed if `heard`. -/
  | make (name : String) (heard : Bool) (recipe : Recipe)
  /-- Gives a name to the pool that holds further items. -/
  | extend (name : String) (pool : String) (items : List String)
  /-- Gives a name to the node inside a modifier. -/
  | nameInner (name : String) (node : String)
  /-- Gives a name to an item of a pool. -/
  | nameChild (name : String) (node : String) (index : Int)
  | ask (node : String) (measure : Measure)
  | size (node : String)
  | count (node : String)
  | isEmpty (node : String)
  | spelling (node : String)
  | innerSpelling (node : String)
  | wraps (node : String)
  | tree (node : String)
  /-- Starts or stops following one node. -/
  | follow (node : String) (heard : Bool)
  /-- The values that a selection would keep. -/
  | select (node : String) (values : List Int)
  /-- Whether a value would make an explosion go on. -/
  | matches (node : String) (value : Int)
  /-- The result of arithmetic on a given number. -/
  | calculate (node : String) (lhs : Int)
  | reports
  | reportCount
  | clear
deriving Repr

/-- The answer to a request. -/
inductive Answer where
  /-- A node has got a name, whether it can be written or not. -/
  | made (title : String) (spelling : Option Text)
  | number (value : Int)
  | numbers (values : List Int)
  | text (value : Text)
  | flag (value : Bool)
  | tree (node : Node Nat)
  | reports (reports : List Report)
  | nothing
  | refused (fault : Fault)
deriving Repr

/-- The answer with a number, or why there is none. -/
def Answer.ofResult : Except Fault Int → Answer
  | .ok value => .number value
  | .error fault => .refused fault

end DicePool
