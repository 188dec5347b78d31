/-
Module: DicePool.Proofs.Grammar
Purpose: The grammar of expressions, as the ways of taking a text apart.
Main exports: Reading, Reading.text, Reading.LooksAhead, Reading.Spells, Reading.terms,
  Reading.Converts
-/
import DicePool.Expression.Lexeme

/-!
A reading takes a text apart into the pieces that the grammar names:

* an expression is a row of parts with plus signs between them;
* a part is a pool with its modifiers, and a pool is dice or an expression in parentheses;
* dice are a number, the die letter and a face, where the number and the face may be left
  out;
* the modifiers are at most one algorithm, with a number that may be left out, and at most
  two operations.

Nothing stands between the pieces.  The pieces are put together again by `Reading.text`,
and what the expression says is `Reading.terms`.

The grammar knows no bound on the digits of a number, but conversion does.  Where all numbers
of a reading can be converted, it `Converts`.

The digits of an operation must not go on behind it, and must not be the number of the
dice that follow: `Reading.LooksAhead`.  This condition is part of the grammar, although
no reading of a whole text could break it.
-/

namespace DicePool

namespace Reading

/-- A run of at least one character of a class. -/
@[ext]
structure Run (p : Char → Bool) where
  text : Text
  nonempty : text ≠ []
  all : ∀ c ∈ text, p c = true

/-- A character out of a list. -/
@[ext]
structure OneOf (forms : List Char) where
  char : Char
  mem : char ∈ forms

/-- The digits `0` to `9`. -/
abbrev Digits := Run Text.isPlainDigit

/-- What is written of a piece that may be left out. -/
def written {β : Type} (text : β → Text) : Option β → Text
  | some piece => text piece
  | none => []

/-- The number that is written, or what it stands for where it is left out. -/
def number (default : Nat) : Option Digits → Nat
  | some digits => Numeral.natOfPlain digits.text
  | none => default

/-- The number is left out, or has few enough digits to be converted. -/
def NumberConverts (digits : Option Digits) : Prop :=
  ∀ run ∈ digits, run.text.length ≤ Numeral.digitLimit

/-- The face of dice. -/
inductive Face where
  | sides (digits : Digits)
  | fudge (letter : OneOf ['f', 'F'])
  | percent
  /-- A list of faces: whatever stands between two brackets. -/
  | custom (list : Text) (unclosed : ']' ∉ list)

/-- The face as it is written. -/
def Face.text : Face → Text
  | sides digits => digits.text
  | fudge letter => [letter.char]
  | percent => ['%']
  | custom list _ => '[' :: list ++ [']']

/-- The two letters of a selection. Case does not matter, and the Kelvin sign is a
capital of `k`. -/
structure SelectionMark where
  action : OneOf ['d', 'D', 'k', 'K', '\u212A']
  rank : OneOf ['h', 'H', 'l', 'L']

/-- What begins an algorithm. -/
inductive Mark where
  | explode (comparison : Option (OneOf ['<', '>', '=']))
  | select (letters : SelectionMark)

/-- The mark as it is written. -/
def Mark.text : Mark → Text
  | explode comparison => '!' :: written (fun sign => [sign.char]) comparison
  | select letters => [letters.action.char, letters.rank.char]

/-- A selection or an explosion. -/
structure Algorithm where
  mark : Mark
  threshold : Option Digits

/-- The algorithm as it is written. -/
def Algorithm.text (algorithm : Algorithm) : Text :=
  algorithm.mark.text ++ written Run.text algorithm.threshold

/-- What the algorithm says. A threshold that is left out is one, and a comparison that
is left out is equality. -/
def Algorithm.modifier (algorithm : Algorithm) : Modifier :=
  match algorithm.mark with
  | .explode none => ⟨.explode, ['='], number 1 algorithm.threshold⟩
  | .explode (some sign) => ⟨.explode, [sign.char], number 1 algorithm.threshold⟩
  | .select letters =>
      ⟨.dropKeep, Text.upper [letters.action.char, letters.rank.char],
        number 1 algorithm.threshold⟩

/-- An arithmetic sign and a number, in digits of any scripts. -/
structure Operation where
  sign : OneOf ['+', '-', '*', '/', '^']
  digits : Run Text.isDecimal

/-- The operation as it is written. -/
def Operation.text (operation : Operation) : Text :=
  operation.sign.char :: operation.digits.text

/-- What the operation says. -/
def Operation.modifier (operation : Operation) : Modifier :=
  ⟨.arithmetic, [operation.sign.char], Numeral.natOfDecimals operation.digits.text⟩

/-- The text does not go on with a digit or the die letter. -/
def EndsNumber (after : Text) : Prop :=
  ∀ c ∈ after.head?, Text.isDecimal c = false ∧ c ∉ ['d', 'D']

/-- Operations as they are written one after the other. -/
def operationsText (operations : List Operation) : Text :=
  operations.flatMap Operation.text

/-- Behind each of the operations the text does not go on with a digit or the die
letter. -/
def OperationsLookAhead : List Operation → Text → Prop
  | [], _ => True
  | _ :: rest, after =>
      EndsNumber (operationsText rest ++ after) ∧ OperationsLookAhead rest after

/-- The modifiers of a pool. -/
structure Modifiers where
  algorithm : Option Algorithm
  operations : List Operation
  atMostTwo : operations.length ≤ 2

/-- The modifiers as they are written. -/
def Modifiers.text (modifiers : Modifiers) : Text :=
  written Algorithm.text modifiers.algorithm ++ operationsText modifiers.operations

/-- The numbers of the modifiers can be converted. -/
structure Modifiers.Converts (modifiers : Modifiers) : Prop where
  algorithm : ∀ algorithm ∈ modifiers.algorithm, NumberConverts algorithm.threshold
  operations : ∀ operation ∈ modifiers.operations,
    operation.digits.text.length ≤ Numeral.digitLimit

/-- What the modifiers say. -/
def Modifiers.list (modifiers : Modifiers) : List Modifier :=
  modifiers.algorithm.toList.map Algorithm.modifier ++ modifiers.operations.map Operation.modifier

/-- A pool with its modifiers. -/
inductive Part where
  | dice (quantity : Option Digits) (letter : OneOf ['d', 'D']) (face : Option Face)
      (modifiers : Modifiers)
  | group (first : Part) (rest : List Part) (modifiers : Modifiers)

namespace Part

mutual

/-- The part as it is written. -/
def text : Part → Text
  | dice quantity letter face modifiers =>
      written Run.text quantity ++ letter.char :: written Face.text face ++ modifiers.text
  | group first rest modifiers =>
      '(' :: text first ++ joined rest ++ ')' :: modifiers.text

/-- Further parts as they are written, each with the plus sign before it. -/
def joined : List Part → Text
  | [] => []
  | part :: rest => '+' :: text part ++ joined rest

end

mutual

/-- Behind each operation of the part the text does not go on with a digit or the die
letter. -/
def LooksAhead : Part → Text → Prop
  | dice _ _ _ modifiers, after => OperationsLookAhead modifiers.operations after
  | group first rest modifiers, after =>
      let closing := ')' :: modifiers.text ++ after
      LooksAhead first (joined rest ++ closing) ∧ LooksAheadEach rest closing
        ∧ OperationsLookAhead modifiers.operations after

/-- The same for further parts. -/
def LooksAheadEach : List Part → Text → Prop
  | [], _ => True
  | part :: rest, after => LooksAhead part (joined rest ++ after) ∧ LooksAheadEach rest after

end

mutual

/-- What the part says. Case does not matter in a face, dice without one get
`defaultFace`, and a number of dice that is left out is one. -/
def term (defaultFace : Text) : Part → Term
  | dice quantity _ face modifiers =>
      .dice ('D' :: (face.map fun face => Text.upper face.text).getD defaultFace)
        (number 1 quantity) modifiers.list
  | group first rest modifiers =>
      .group (term defaultFace first :: terms defaultFace rest) modifiers.list

/-- What further parts say. -/
def terms (defaultFace : Text) : List Part → List Term
  | [] => []
  | part :: rest => term defaultFace part :: terms defaultFace rest

end

mutual

/-- The numbers of the part can be converted, and there is a face for dice that have none.
The sides of a die are no number yet. -/
def Converts (defaultFace : Option Text) : Part → Prop
  | dice quantity _ face modifiers =>
      (face.isSome ∨ defaultFace.isSome) ∧ NumberConverts quantity ∧ modifiers.Converts
  | group first rest modifiers =>
      Converts defaultFace first ∧ ConvertsEach defaultFace rest ∧ modifiers.Converts

/-- The same for further parts. -/
def ConvertsEach (defaultFace : Option Text) : List Part → Prop
  | [] => True
  | part :: rest => Converts defaultFace part ∧ ConvertsEach defaultFace rest

end

end Part

end Reading

/-- A reading of an expression: its parts, of which there is at least one. -/
structure Reading where
  first : Reading.Part
  rest : List Reading.Part

namespace Reading

/-- The text that is taken apart. -/
def text (reading : Reading) : Text :=
  reading.first.text ++ Part.joined reading.rest

/-- Behind each operation the text does not go on with a digit or the die letter. -/
def LooksAhead (reading : Reading) : Prop :=
  reading.first.LooksAhead (Part.joined reading.rest) ∧ Part.LooksAheadEach reading.rest []

/-- The reading takes apart this text. -/
def Spells (reading : Reading) (s : Text) : Prop :=
  reading.text = s ∧ reading.LooksAhead

/-- What the expression says. -/
def terms (defaultFace : Text) (reading : Reading) : List Term :=
  reading.first.term defaultFace :: Part.terms defaultFace reading.rest

/-- The numbers of the expression can be converted, and there is a face for dice that have
none. -/
def Converts (defaultFace : Option Text) (reading : Reading) : Prop :=
  reading.first.Converts defaultFace ∧ Part.ConvertsEach defaultFace reading.rest

end Reading

end DicePool
