/-
Module: DicePool.Text.Codes
Purpose: Texts as the codes of their characters, where a code need not be that of a character.
Main exports: Codes, Codes.notAfter, Codes.ofText, Codes.ofString, Codes.toText
-/
import DicePool.Text.Blank

/-!
A settings file may give a character by its code, and then any code will do: also one of
those that stand for a character only in pairs.  Such halves are compared and ordered as
the codes they are, so a pair of them differs from the character that it stands for.
Only where codes are shown do two halves in a row become that character.

A text is shown as itself: `Codes.toText_ofText`.
-/

namespace DicePool

/-- The codes of what stands in a text. They are ordered like words, code by code. -/
abbrev Codes := List Nat

namespace Codes

/-- Whether the first codes come no later than the second. -/
def notAfter : Codes → Codes → Bool
  | [], _ => true
  | _ :: _, [] => false
  | a :: s, b :: t => a < b || (a == b && notAfter s t)

/-- The number of codes, all of them together. -/
def bound : Nat := 0x110000

/-- The codes of the characters of a text. -/
def ofText (s : Text) : Codes :=
  s.map Char.toNat

/-- The codes of the characters of a string. -/
def ofString (s : String) : Codes :=
  ofText s.toList

/-- Whether a code is the first half of a pair. -/
def isHigh (code : Nat) : Bool :=
  0xD800 ≤ code && code < 0xDC00

/-- Whether a code is the second half of a pair. -/
def isLow (code : Nat) : Bool :=
  0xDC00 ≤ code && code < 0xE000

/-- The character that two codes stand for together, if they are the halves of a pair. -/
def pair? (high low : Nat) : Option Char :=
  if isHigh high && isLow low then
    some (Char.ofNat (0x10000 + 0x400 * (high - 0xD800) + (low - 0xDC00)))
  else
    none

/-- The character of a code, or the replacement character where there is none. -/
def shown (code : Nat) : Char :=
  if code.isValidChar then Char.ofNat code else Char.ofNat 0xFFFD

/-- The text that is shown for codes. -/
def toText : Codes → Text
  | [] => []
  | [code] => [shown code]
  | code :: next :: rest =>
      match pair? code next with
      | some c => c :: toText rest
      | none => shown code :: toText (next :: rest)

/-- No character is half of a pair. -/
theorem isHigh_toNat (c : Char) : isHigh c.toNat = false := by
  have valid : c.toNat < 0xD800 ∨ 0xDFFF < c.toNat ∧ c.toNat < 0x110000 := c.valid
  simp only [isHigh, Bool.and_eq_false_iff, decide_eq_false_iff_not]
  omega

/-- The code of a character is shown as the character. -/
theorem shown_toNat (c : Char) : shown c.toNat = c := by
  have valid : c.toNat.isValidChar := c.valid
  simp [shown, valid]

/-- A text is shown as itself. -/
theorem toText_ofText (s : Text) : toText (ofText s) = s := by
  induction s with
  | nil => rfl
  | cons c rest ih =>
      cases rest with
      | nil => simp [ofText, toText, shown_toNat]
      | cons d rest =>
          simp only [ofText, List.map_cons] at ih
          simp [ofText, toText, pair?, isHigh_toNat, shown_toNat, ih]

end Codes

end DicePool
