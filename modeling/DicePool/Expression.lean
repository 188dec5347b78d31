/-
Module: DicePool.Expression
Purpose: What a dice expression says, before anything of it is checked or built.
Main exports: ModifierKind, Modifier, Term, Suffix, Suffix.modifier?, Phrase, Phrase.suffixed,
  Phrase.term?, Phrase.terms?
-/
import DicePool.Text.Numeral

/-!
An expression is a list of terms.  A term names dice of one type, or groups an
expression in parentheses, and lists what is done to their result.  Types and
operators are still texts here: whether there is such a die or operator is
decided when the expression is assembled.

A phrase is a term as it was written.  Its numbers are still runs of digits, and what
was left out is missing.  From phrases one gets to terms where all numbers can be
converted: `Phrase.terms?`.
-/

namespace DicePool

/-- What a modifier does to the pool before it. -/
inductive ModifierKind where
  /-- Calculates with the sum. -/
  | arithmetic
  /-- Drops or keeps the lowest or highest results. -/
  | dropKeep
  /-- Rolls on where a result meets a condition. -/
  | explode
deriving Repr, DecidableEq

/-- A modifier as it was written, with the defaults filled in. -/
structure Modifier where
  kind : ModifierKind
  operator : Text
  value : Int
deriving Repr, DecidableEq

/-- A term of an expression. -/
inductive Term where
  /-- So many dice of one type. -/
  | dice (type : Text) (quantity : Int) (modifiers : List Modifier)
  /-- The terms in a pair of parentheses. -/
  | group (terms : List Term) (modifiers : List Modifier)
deriving Repr, Inhabited

namespace Term

/-- The modifiers of a term, in the order in which they apply. -/
def modifiers : Term → List Modifier
  | dice _ _ modifiers => modifiers
  | group _ modifiers => modifiers

end Term

/-- A number as it was written, and `default` where it was left out. -/
def numberOr? (default : Nat) : Option Text → Option Nat
  | some digits => Numeral.convert? digits
  | none => some default

/-- A modifier as it was written. -/
structure Suffix where
  kind : ModifierKind
  operator : Text
  /-- The digits of its number, unless that was left out. -/
  digits : Option Text
deriving Repr, DecidableEq

/-- The modifier that was written, if its number can be converted. A number that was left
out is one. -/
def Suffix.modifier? (suffix : Suffix) : Option Modifier :=
  (numberOr? 1 suffix.digits).map fun (value : Nat) => ⟨suffix.kind, suffix.operator, value⟩

/-- A term as it was written. -/
inductive Phrase where
  /-- The digits of the number of dice, and their face in upper case, unless these were
  left out. -/
  | dice (quantity face : Option Text) (suffixes : List Suffix)
  | group (phrases : List Phrase) (suffixes : List Suffix)
deriving Repr, Inhabited

namespace Phrase

/-- The same pool with further modifiers after those it has. -/
def suffixed (later : List Suffix) : Phrase → Phrase
  | dice quantity face suffixes => .dice quantity face (suffixes ++ later)
  | group phrases suffixes => .group phrases (suffixes ++ later)

mutual

/-- The term that was written, if its numbers can be converted. Dice that were written
without a face get `defaultFace`, and a number of dice that was left out is one. -/
def term? (defaultFace : Option Text) : Phrase → Option Term
  | dice quantity face suffixes => do
      let face ← face.or defaultFace
      let quantity ← numberOr? 1 quantity
      let modifiers ← suffixes.mapM Suffix.modifier?
      return .dice ('D' :: face) quantity modifiers
  | group phrases suffixes => do
      let terms ← terms? defaultFace phrases
      let modifiers ← suffixes.mapM Suffix.modifier?
      return .group terms modifiers

/-- The terms that were written, if all their numbers can be converted. -/
def terms? (defaultFace : Option Text) : List Phrase → Option (List Term)
  | [] => some []
  | first :: rest => do
      let term ← term? defaultFace first
      let terms ← terms? defaultFace rest
      return term :: terms

end

end Phrase

end DicePool
