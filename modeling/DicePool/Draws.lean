/-
Module: DicePool.Draws
Purpose: The stream of numbers that the dice of one table share.
Main exports: Draws, Draws.cycle, Draws.ofSeed
-/

/-!
A roll never asks the world for chance.  It reads an endless stream of natural
numbers by position, and answers together with its result how far it has read.
A die reduces the number it reads to one of its faces.
-/

namespace DicePool

/-- An endless stream of numbers, by position. -/
abbrev Draws := Nat → Nat

namespace Draws

/-- The numbers over and over again. An empty array repeats zero. -/
def cycle (values : Array Nat) : Draws :=
  fun position => (values[position % values.size]?).getD 0

/-- Mixes the bits of a word so that neighbours become unrelated. -/
def scramble (word : UInt64) : UInt64 :=
  let a := (word ^^^ (word >>> 30)) * 0xBF58476D1CE4E5B9
  let b := (a ^^^ (a >>> 27)) * 0x94D049BB133111EB
  b ^^^ (b >>> 31)

/-- A stream that looks random and is determined by its seed. -/
def ofSeed (seed : UInt64) : Draws :=
  fun position => (scramble (seed + 0x9E3779B97F4A7C15 * UInt64.ofNat (position + 1))).toNat

end Draws

end DicePool
