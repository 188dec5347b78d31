/-
Module: DicePool.Expression.Lexeme
Purpose: The smallest pieces of an expression, each read off the front of a text.
Main exports: Lexeme.isDieLetter, Lexeme.digits?, Lexeme.number, Lexeme.face?, Lexeme.operation?,
  Lexeme.explosion?, Lexeme.selection?, Lexeme.algorithm?, Lexeme.suffixes
-/
import DicePool.Expression
import DicePool.Text.Numeral
import DicePool.Text.Upper

/-!
Every function takes the longest piece of its class that the text begins with,
and returns it with the rest of the text.

Two pieces need a look beyond their end.  `+3` is an operation only where the
digits are not followed by the die letter: in `d6+3d4` the plus joins two terms.
And a die letter may begin a selection (`dl`, `dh`), so selections are looked for
before anything else that `d` could mean.
-/

namespace DicePool.Lexeme

/-- The letter that announces a die. -/
def isDieLetter (c : Char) : Bool :=
  c == 'd' || c == 'D'

/-- The first letter of a selection: drop or keep. The Kelvin sign is a capital
of `k` and counts as one. -/
def isSelectionLetter (c : Char) : Bool :=
  isDieLetter c || c == 'k' || c == 'K' || c == '\u212A'

/-- The second letter of a selection: highest or lowest. -/
def isRankLetter (c : Char) : Bool :=
  c == 'h' || c == 'H' || c == 'l' || c == 'L'

/-- The signs of arithmetic. -/
def isOperationSign (c : Char) : Bool :=
  c == '+' || c == '-' || c == '*' || c == '/' || c == '^'

/-- The signs that compare a result with a threshold. -/
def isComparisonSign (c : Char) : Bool :=
  c == '<' || c == '>' || c == '='

/-- The run of the digits `0` to `9` at the front, if there is one. -/
def digits? (s : Text) : Option (Text × Text) :=
  let run := s.takeWhile Text.isPlainDigit
  if run.isEmpty then none else some (run, s.dropWhile Text.isPlainDigit)

/-- The digits of the number at the front, if there is one. -/
def number (s : Text) : Option Text × Text :=
  match digits? s with
  | some (run, rest) => (some run, rest)
  | none => (none, s)

/-- What may follow the die letter: a number of sides, the letter of a fudge die,
a percent sign, or a list of faces in brackets. It is returned in upper case. -/
def face? : Text → Option (Text × Text)
  | '%' :: rest => some (['%'], rest)
  | 'f' :: rest => some (['F'], rest)
  | 'F' :: rest => some (['F'], rest)
  | '[' :: rest =>
      match rest.dropWhile (· != ']') with
      | ']' :: after => some (Text.upper ('[' :: rest.takeWhile (· != ']') ++ [']']), after)
      | _ => none
  | s => digits? s

/-- Whether the text begins with the die letter. -/
def startsDie : Text → Bool
  | c :: _ => isDieLetter c
  | [] => false

/-- An arithmetic sign and the number after it, in digits of any scripts, unless
the digits are the quantity of the dice that follow. -/
def operation? : Text → Option (Suffix × Text)
  | sign :: s =>
      if isOperationSign sign then
        let run := s.takeWhile Text.isDecimal
        let rest := s.dropWhile Text.isDecimal
        if run.isEmpty || startsDie rest then none
        else some (⟨.arithmetic, [sign], some run⟩, rest)
      else none
  | [] => none

/-- An exclamation mark and the comparison after it. Without one, the
comparison is equality. -/
def explosion? : Text → Option (Text × Text)
  | '!' :: sign :: rest =>
      if isComparisonSign sign then some ([sign], rest) else some (['='], sign :: rest)
  | '!' :: [] => some (['='], [])
  | _ => none

/-- The two letters of a selection, in upper case. -/
def selection? : Text → Option (Text × Text)
  | action :: rank :: rest =>
      if isSelectionLetter action && isRankLetter rank then
        some (Text.upper [action, rank], rest)
      else none
  | _ => none

/-- A selection or an explosion with its threshold, which may be left out. -/
def algorithm? (s : Text) : Option (Suffix × Text) :=
  match selection? s with
  | some (operator, rest) =>
      let (threshold, rest) := number rest
      some (⟨.dropKeep, operator, threshold⟩, rest)
  | none =>
      match explosion? s with
      | some (comparison, rest) =>
          let (threshold, rest) := number rest
          some (⟨.explode, comparison, threshold⟩, rest)
      | none => none

/-- At most `limit` operations at the front. -/
def operations : Nat → Text → List Suffix × Text
  | 0, s => ([], s)
  | limit + 1, s =>
      match operation? s with
      | some (operation, rest) =>
          let (others, rest) := operations limit rest
          (operation :: others, rest)
      | none => ([], s)

/-- The modifiers of a term: at most one selection or explosion, then at most
two operations. -/
def suffixes (s : Text) : List Suffix × Text :=
  match algorithm? s with
  | some (algorithm, rest) =>
      let (others, rest) := operations 2 rest
      (algorithm :: others, rest)
  | none => operations 2 s

/-- Whether the text begins with a modifier. -/
def startsModifier (s : Text) : Bool :=
  (algorithm? s).isSome || (operation? s).isSome

end DicePool.Lexeme
