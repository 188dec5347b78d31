/-
Module: DicePool.Expression.Reader
Purpose: Reads the terms of an expression, or says which part of the text is to blame.
Main exports: Blame, Expression.readPhrases, Expression.parse
-/
import DicePool.Expression.Lexeme
import DicePool.Fault

/-!
The reader goes through the text once and never back.  Where it cannot go on, it
blames either a modifier, quoting the text from there on, or the whole text:

* what begins like a modifier is blamed as one, wherever it stands;
* after a complete pool only a modifier could have followed, so whatever stands
  there is blamed as one, parentheses and the end of the text excepted;
* elsewhere a pool was due, or a face after a bare die letter, and the whole text
  is blamed.

Numbers are only converted once the whole text was read.  So a number that is too long is
a fault of its own, which comes up where the text is an expression otherwise.
-/

namespace DicePool

/-- Which part of a text is to blame that it is no expression. -/
inductive Blame where
  | whole
  | modifier (rest : Text)
deriving Repr, DecidableEq

namespace Expression

/-- The blame where the reader stops before `rest`. `complete` tells whether the
pool before it needs nothing more. -/
def blame (complete : Bool) (rest : Text) : Blame :=
  if Lexeme.startsModifier rest then
    .modifier rest
  else
    match rest with
    | [] => .whole
    | c :: _ => if complete && c != '(' && c != ')' then .modifier rest else .whole

/-- Reads the text after a die letter: a face, or nothing. The answer's second
part tells whether a face was given. -/
def readFace (quantity : Option Text) (s : Text) : Phrase × Bool × Text :=
  match Lexeme.face? s with
  | some (face, rest) => (.dice quantity (some face) [], true, rest)
  | none => (.dice quantity none [], false, s)

/-- Reads dice or a group. `readGroup` reads what stands in parentheses. -/
def readPool (readGroup : Text → Except Blame (List Phrase × Text)) (s : Text) :
    Except Blame (Phrase × Bool × Text) :=
  match s with
  | '(' :: inner => do
      let (phrases, rest) ← readGroup inner
      return (.group phrases [], true, rest)
  | _ =>
      let (quantity, rest) := Lexeme.number s
      match rest with
      | c :: after =>
          if Lexeme.isDieLetter c then .ok (readFace quantity after)
          else .error (blame false rest)
      | [] => .error (blame false rest)

/-- What follows the terms: the parenthesis that closes a group, and the end of the
text outside of any. -/
def close (nested complete : Bool) (rest : Text) : Except Blame Text :=
  match nested, rest with
  | true, ')' :: after => .ok after
  | false, [] => .ok []
  | _, _ => .error (blame complete rest)

/-- The text after a plus sign that joins two terms. -/
def afterJoin? (s : Text) : Option Text :=
  match s with
  | '+' :: rest => if (Lexeme.operation? s).isNone then some rest else none
  | _ => none

/-- Reads terms up to what closes them. Each call for a further term or a group
has passed at least one character, so as much fuel as there are characters, and
one more, never runs out. -/
def readPhrases : Nat → Bool → Text → Except Blame (List Phrase × Text)
  | 0, _, _ => .error .whole
  | fuel + 1, nested, s => do
      let (pool, complete, rest) ← readPool (readPhrases fuel true) s
      let (suffixes, rest) := Lexeme.suffixes rest
      let phrase := pool.suffixed suffixes
      match afterJoin? rest with
      | some next =>
          let (phrases, rest) ← readPhrases fuel nested next
          return (phrase :: phrases, rest)
      | none =>
          let rest ← close nested (complete || !suffixes.isEmpty) rest
          return ([phrase], rest)

/-- What is read is converted. -/
def convert (defaultFace : Option Text) (phrases : List Phrase) : Except Fault (List Term) :=
  match Phrase.terms? defaultFace phrases with
  | some terms => .ok terms
  | none => .error .unconvertedNumber

/-- The terms of a text. Blanks around it do not matter, and a blank text has no
terms. Dice without a face get `defaultFace`. -/
def parse (defaultFace : Option Text) (text : Text) : Except Fault (List Term) :=
  match Text.trim text with
  | [] => .ok []
  | s =>
      match readPhrases (s.length + 1) false s with
      | .ok (phrases, _) => convert defaultFace phrases
      | .error .whole => .error (.unreadableExpression s)
      | .error (.modifier rest) => .error (.unreadableModifier rest)

end Expression

end DicePool
