/-
Module: DicePool.Text.Numeral
Purpose: Decimal numerals: how integers are written, and the wider forms in which they are read.
Main exports: Numeral.digitLimit, Numeral.ofNat, Numeral.ofInt, Numeral.isWritable, Numeral.write?,
  Numeral.natOfPlain, Numeral.natOfDecimals, Numeral.convert?, Numeral.readInt?
-/
import DicePool.Text.Digit

/-!
Numbers are as great as one likes, but no conversion between a number and its numeral
goes beyond `digitLimit` digits.  A number that has more cannot be written
(`Numeral.write?`), and a numeral that has more cannot be read (`Numeral.convert?`,
`Numeral.readInt?`), whatever its digits are: leading zeros count, signs and low lines
do not.

`ofNat`, `ofInt`, `natOfPlain` and `natOfDecimals` say which digits a number has and
which number some digits mean, long or short.
-/

namespace DicePool.Numeral

/-- The greatest number of digits that a numeral may have where it is written or read. -/
def digitLimit : Nat :=
  4300

/-- The decimal digits of `n`, without leading zeros. -/
def ofNat (n : Nat) : Text :=
  Nat.toDigits 10 n

/-- The decimal numeral of `n`, with a minus sign where it is negative. -/
def ofInt : Int → Text
  | .ofNat n => ofNat n
  | .negSucc n => '-' :: ofNat (n + 1)

/-- Whether a number has few enough digits to be written. -/
def isWritable (n : Int) : Bool :=
  (ofNat n.natAbs).length ≤ digitLimit

/-- The numeral of a number, unless it is too long. -/
def write? (n : Int) : Option Text :=
  if isWritable n then some (ofInt n) else none

/-- The number whose decimal digits, most significant first, are given. -/
def ofDigitValues (digits : List Nat) : Nat :=
  digits.foldl (fun n digit => 10 * n + digit) 0

/-- The number written by a run of the digits `0` to `9`. -/
def natOfPlain (s : Text) : Nat :=
  Nat.ofDigitChars 10 s 0

/-- A written number is read as itself. -/
@[simp] theorem natOfPlain_ofNat (n : Nat) : natOfPlain (ofNat n) = n :=
  Nat.ofDigitChars_toDigits (by decide) (by decide)

/-- The number written by a run of decimal digits of any scripts. -/
def natOfDecimals (s : Text) : Nat :=
  ofDigitValues (s.filterMap Text.decimalValue?)

/-- The number written by a run of decimal digits, unless there are too many. -/
def convert? (digits : Text) : Option Nat :=
  if digits.length ≤ digitLimit then some (natOfDecimals digits) else none

/-- Reads a non-empty run of decimal digits, in which single low lines may
stand between two digits. -/
def readNat? (s : Text) : Option Nat :=
  let groups := Text.fields '_' s
  if groups.all fun group => !group.isEmpty && group.all Text.isDecimal then
    convert? groups.flatten
  else
    none

/-- Reads an unsigned numeral after at most one sign. -/
def readSigned? : Text → Option Int
  | '-' :: rest => (readNat? rest).map fun (n : Nat) => -(n : Int)
  | '+' :: rest => (readNat? rest).map fun (n : Nat) => (n : Int)
  | rest => (readNat? rest).map fun (n : Nat) => (n : Int)

/-- The blanks that may surround a numeral: all but the four information
separators. -/
def isMargin (c : Char) : Bool :=
  Text.isBlank c && !Text.inRanges [(0x1C, 0x1F)] c

/-- Reads an integer, with blanks around it. -/
def readInt? (s : Text) : Option Int :=
  readSigned? (Text.trimBy isMargin s)

end DicePool.Numeral
