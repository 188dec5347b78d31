/-
Module: DicePool.Text.Blank
Purpose: Texts as lists of characters; the blanks that may surround an expression.
Main exports: Text, Text.isBlank, Text.trim, Text.fields, Text.join
-/

namespace DicePool

/-- A text is handled as the list of its characters, so that reading and
spelling are recursions on one and the same data. -/
abbrev Text := List Char

namespace Text

/-- Whether the code point of `c` lies in one of the closed ranges. -/
def inRanges (ranges : List (Nat × Nat)) (c : Char) : Bool :=
  ranges.any fun range => range.1 ≤ c.toNat && c.toNat ≤ range.2

/-- The blanks: white space of every script, and the four information
separators `U+001C` to `U+001F`. -/
def blankRanges : List (Nat × Nat) :=
  [(0x09, 0x0D), (0x1C, 0x20), (0x85, 0x85), (0xA0, 0xA0), (0x1680, 0x1680),
   (0x2000, 0x200A), (0x2028, 0x2029), (0x202F, 0x202F), (0x205F, 0x205F),
   (0x3000, 0x3000)]

/-- Whether `c` may surround a text without being part of it. -/
def isBlank (c : Char) : Bool :=
  inRanges blankRanges c

/-- The text without the characters of class `p` at its two ends. -/
def trimBy (p : Char → Bool) (s : Text) : Text :=
  ((s.dropWhile p).reverse.dropWhile p).reverse

/-- The text without the blanks at its two ends. -/
def trim (s : Text) : Text :=
  trimBy isBlank s

/-- The fields between separators: one more than there are separators, so an
empty text has one empty field. -/
def fields (separator : Char) : Text → List Text
  | [] => [[]]
  | c :: rest =>
      if c = separator then
        [] :: fields separator rest
      else
        match fields separator rest with
        | [] => [[c]]
        | field :: others => (c :: field) :: others

/-- The texts one after the other, with `separator` between neighbours. -/
def join (separator : Text) : List Text → Text
  | [] => []
  | [s] => s
  | s :: t :: rest => s ++ separator ++ join separator (t :: rest)

end Text

end DicePool
