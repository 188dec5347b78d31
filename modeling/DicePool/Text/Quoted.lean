/-
Module: DicePool.Text.Quoted
Purpose: Quotes around a text, such that every character in it can be seen.
Main exports: Text.quotedChar, Text.quoted
-/
import DicePool.Text.Invisible

/-!
A text is set in single quotes, or in double quotes where it contains single quotes and
no double ones.  A character without a visible form is replaced by a backslash and its
code point, in two, four or eight digits of base sixteen.
-/

namespace DicePool.Text

/-- The number in base sixteen, filled up with zeros to a width. -/
def hexadecimal (width n : Nat) : Text :=
  let digits := Nat.toDigits 16 n
  List.replicate (width - digits.length) '0' ++ digits

/-- How one character is written between quotes. -/
def quotedChar (quote c : Char) : Text :=
  if c = quote || c = '\\' then ['\\', c]
  else if c = '\n' then ['\\', 'n']
  else if c = '\r' then ['\\', 'r']
  else if c = '\t' then ['\\', 't']
  else if isInvisible c then
    let code := c.toNat
    if code < 0x100 then '\\' :: 'x' :: hexadecimal 2 code
    else if code < 0x10000 then '\\' :: 'u' :: hexadecimal 4 code
    else '\\' :: 'U' :: hexadecimal 8 code
  else [c]

/-- The text between quotes. -/
def quoted (s : Text) : Text :=
  let single := Char.ofNat 0x27
  let double := Char.ofNat 0x22
  let quote := if s.contains single && !s.contains double then double else single
  quote :: s.flatMap (quotedChar quote) ++ [quote]

end DicePool.Text
