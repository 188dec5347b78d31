/-
Module: DicePool.Settings.Value
Purpose: The values of a settings file, and what reads them out of its text.
Main exports: Value, Value.isTruthy, Loader
-/
import DicePool.Fault

/-!
The text of a settings file is not taken apart here.  Whoever runs the program brings a
loader, which makes a value of the text or finds a fault with it.
-/

namespace DicePool

/-- A value of a settings file. -/
inductive Value where
  | null
  | flag (value : Bool)
  | integer (value : Int)
  | text (value : Codes)
  | list (items : List Value)
  /-- Of entries with one key the last counts. -/
  | mapping (entries : List (Value × Value))
  /-- Any other value: a fraction, a date. Only whether it switches something on is ever of
  interest. -/
  | other (isTruthy : Bool)
deriving Repr, Inhabited

/-- Whether a value switches something on: all do but no, zero, nothing and what is
empty. -/
def Value.isTruthy : Value → Bool
  | null => false
  | flag value => value
  | integer value => value != 0
  | text value => !value.isEmpty
  | list items => !items.isEmpty
  | mapping entries => !entries.isEmpty
  | other isTruthy => isTruthy

/-- Reads the text of a settings file. -/
abbrev Loader := Text → Except LoadFault Value

end DicePool
