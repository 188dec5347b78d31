/-
Module: DicePool.Die
Purpose: The four sorts of dice: their faces, how they are written, what they show for a draw.
Main exports: Die, Die.size, Die.lowest, Die.highest, Die.face, Die.shown, Die.spelling,
  Die.numbers,
  Die.withSides, Die.withFaces
-/
import DicePool.Fault

namespace DicePool

/-- A single die. -/
inductive Die where
  /-- The faces `1` to `sides`. -/
  | sided (sides : Nat)
  /-- The faces `1` to `100`, and a spelling of its own. -/
  | percentile
  /-- The faces `-1`, `0` and `1`. -/
  | fudge
  /-- The given faces, in the given order. A face may occur several times. -/
  | custom (faces : List Int)
deriving Repr, DecidableEq

namespace Die

/-- The number of faces. -/
def size : Die → Nat
  | sided sides => sides
  | percentile => 100
  | fudge => 3
  | custom faces => faces.length

/-- The smallest face. -/
def lowest : Die → Int
  | sided _ => 1
  | percentile => 1
  | fudge => -1
  | custom faces => faces.min?.getD 0

/-- The greatest face. -/
def highest : Die → Int
  | sided sides => sides
  | percentile => 100
  | fudge => 1
  | custom faces => faces.max?.getD 0

/-- The face that a draw shows: the faces in order, counted from zero, over and
over again. -/
def face (d : Die) (draw : Nat) : Int :=
  match d with
  | sided sides => 1 + (draw % sides : Nat)
  | percentile => 1 + (draw % 100 : Nat)
  | fudge => -1 + (draw % 3 : Nat)
  | custom faces => faces.getD (draw % faces.length) 0

/-- The face that a draw shows, if there are faces. -/
def shown (d : Die) (draw : Nat) : Except Fault Int :=
  if d.size = 0 then .error .noFaces else .ok (d.face draw)

/-- How the die is written in an expression. -/
def spelling : Die → Text
  | sided sides => 'D' :: Numeral.ofNat sides
  | percentile => ['D', '%']
  | fudge => ['D', 'F']
  | custom faces =>
      ['D', '['] ++ Text.join [','] (faces.map Numeral.ofInt) ++ [']']

/-- The numbers that stand in the text of the die. -/
def numbers : Die → List Int
  | sided sides => [sides]
  | custom faces => faces
  | _ => []

/-- A die with the faces `1` to `sides`. A die has at least two sides. -/
def withSides (sides : Int) : Except Fault Die :=
  if sides < 2 then .error (Fault.tooFewSides sides).raised else .ok (.sided sides.toNat)

/-- A die with the given faces. A die has at least two. -/
def withFaces (faces : List Int) : Except Fault Die :=
  if faces.length < 2 then .error (Fault.tooFewSides faces.length).raised else .ok (.custom faces)

end Die

end DicePool
