/-
Module: DicePool.Die.Reader
Purpose: Dice from the texts that describe them.
Main exports: Die.readSided, Die.readCustom, Die.read
-/
import DicePool.Die
import DicePool.Text.Upper

/-!
Blanks around the text and the case of its letters do not matter.  A die with
sides is `D` and a run of digit marks.  A die with faces of its own is `D` and a
bracketed list of integers.  The fault always quotes the text as it was given, but a
number of sides that is too long is refused without a word on the text.
-/

namespace DicePool.Die

/-- Reads the text of a die with sides. A run of digit marks that are not all
decimal digits passes the shape test and fails as a number. -/
def readSided (text : Text) : Except Fault Die :=
  match Text.upper (Text.trim text) with
  | 'D' :: digits =>
      if !digits.isEmpty && digits.all Text.isDigitMark then
        if digits.all Text.isDecimal then
          match Numeral.convert? digits with
          | some sides => withSides sides
          | none => .error .numberTooLong
        else
          .error (.decoratedDigit text)
      else
        .error (.unreadableDie text)
  | _ => .error (.unreadableDie text)

/-- The integers of a list with commas between them, each with blanks around it. -/
def readFaces? (list : Text) : Option (List Int) :=
  (Text.fields ',' list).mapM fun field => Numeral.readInt? (Text.trim field)

/-- Reads the text of a die with faces of its own. -/
def readCustom (text : Text) : Except Fault Die :=
  match Text.upper (Text.trim text) with
  | 'D' :: '[' :: rest =>
      if rest.getLast? = some ']' then
        match readFaces? rest.dropLast with
        | some faces => withFaces faces
        | none => .error (.unreadableDie text)
      else
        .error (.unreadableDie text)
  | _ => .error (.unreadableDie text)

/-- Reads the text of any die. The two dice with names of their own are matched
literally; a bracket anywhere announces a list of faces. -/
def read (text : Text) : Except Fault Die :=
  if text = ['D', 'F'] then .ok .fudge
  else if text = ['D', '%'] then .ok .percentile
  else if text.contains '[' then readCustom text
  else readSided text

end DicePool.Die
