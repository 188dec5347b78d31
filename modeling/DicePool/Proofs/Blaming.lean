/-
Module: DicePool.Proofs.Blaming
Purpose: What is blamed where an expression is followed by a character of no use in one.
Main exports: Reading.Useless, Reading.endsBare, Reading.readPhrases_stuck,
  Reading.parse_append_letter
-/
import Mathlib.Data.List.DropRight
import DicePool.Proofs.Parsing
import DicePool.Proofs.Spellings

/-!
Behind an expression the reader stops at a character that neither goes on with the last
part nor joins another one to it.  By then it has read the whole expression, since nothing
that it looked ahead to was the character, and what it blames depends on the last part
only: where that is dice without a face and without modifiers, the character could have
been an attempt at a face.
-/

namespace DicePool

namespace Text

/-- Behind a character that is no blank, only the blanks at the end do not count. -/
theorem trim_append_cons {s : Text} (trimmed : trim s = s) (nonempty : s ≠ []) {c : Char}
    (noBlank : isBlank c = false) (after : Text) :
    trim (s ++ c :: after) = s ++ c :: after.rdropWhile isBlank := by
  have front : Stops isBlank (s ++ c :: after) := (trimBy_eq_self_iff.mp trimmed).1.append nonempty
  rw [trim, trimBy, front.dropWhile, List.reverse_append, List.reverse_cons, List.append_assoc,
    List.dropWhile_append, List.rdropWhile]
  split
  · next blank => simp [noBlank, List.isEmpty_iff.mp blank]
  · simp

end Text

namespace Fault

theorem message_unreadableExpression (text : Text) : (unreadableExpression text).message =
    Codes.ofString ("the submitted expression " ++ quoted text ++
      " is invalid or not supported") :=
  List.append_nil _

theorem message_unreadableModifier (rest : Text) : (unreadableModifier rest).message =
    Codes.ofString ("the submitted modifier " ++ quoted rest ++
      " is invalid or not supported") :=
  List.append_nil _

end Fault

namespace Reading

open Lexeme

/-! ### Characters of no use -/

/-- The character neither goes on with a part nor stands between parts or around them. -/
structure Useless (c : Char) : Prop where
  continuesNothing : continues c = false
  noSign : isOperationSign c = false
  noParenthesis : c ≠ '(' ∧ c ≠ ')'
  noBlank : Text.isBlank c = false

/-- A letter from `a` to `z`, of either case, other than those of dice, fudge faces and
keeping. -/
structure IsForeign (c : Char) : Prop where
  letter : c.isAlpha = true
  other : c ∉ ['d', 'D', 'f', 'F', 'k', 'K']

namespace Useless

variable {c : Char} (useless : Useless c) (rest : Text)
include useless

theorem endsPart : EndsPart (c :: rest) where
  stops := (stops_cons ..).mpr useless.continuesNothing
  noOperation := by simp [operation?, useless.noSign]

theorem afterJoin?_eq_none : Expression.afterJoin? (c :: rest) = none := by
  have noPlus : c ≠ '+' := by
    rintro rfl
    exact absurd useless.noSign (by decide)
  simp [Expression.afterJoin?, noPlus]

theorem close_eq_error (nested complete : Bool) :
    Expression.close nested complete (c :: rest) =
      .error (if complete then .modifier (c :: rest) else .whole) := by
  have noModifier : startsModifier (c :: rest) = false := by
    simp [startsModifier, algorithm?_eq_none (useless.endsPart rest).stops,
      (useless.endsPart rest).noOperation]
  obtain ⟨noOpening, noClosing⟩ := useless.noParenthesis
  cases nested <;> cases complete <;>
    simp [Expression.close, Expression.blame, noModifier, noOpening, noClosing]

end Useless

/-- What is seen of all foreign letters is true of each of them. -/
theorem IsForeign.holds {c : Char} (foreign : IsForeign c) {P : Char → Prop}
    [DecidablePred P] (seen : ∀ code < 128, (Char.ofNat code).isAlpha = true →
      Char.ofNat code ∉ ['d', 'D', 'f', 'F', 'k', 'K'] → P (Char.ofNat code)) : P c := by
  have small : c.toNat < 128 := by
    have cased : (c.isUpper || c.isLower) = true := foreign.letter
    rcases Bool.or_eq_true_iff.mp cased with upper | lower
    · have within : c.val ≤ 'Z'.val := (of_decide_eq_true upper).2
      exact Nat.lt_of_le_of_lt (UInt32.le_iff_toNat_le.mp within) (by decide)
    · have within : c.val ≤ 'z'.val := of_decide_eq_true (Bool.and_eq_true_iff.mp lower).2
      exact Nat.lt_of_le_of_lt (UInt32.le_iff_toNat_le.mp within) (by decide)
  have known := seen c.toNat small
  rw [Char.ofNat_toNat] at known
  exact known foreign.letter foreign.other

theorem IsForeign.useless {c : Char} (foreign : IsForeign c) : Useless c where
  continuesNothing := foreign.holds (P := fun c => continues c = false) (by decide)
  noSign := foreign.holds (P := fun c => isOperationSign c = false) (by decide)
  noParenthesis := foreign.holds (P := fun c => c ≠ '(' ∧ c ≠ ')') (by decide)
  noBlank := foreign.holds (P := fun c => Text.isBlank c = false) (by decide)

/-! ### The last part -/

/-- The part is dice without a face and without modifiers. -/
def Part.isBare : Part → Bool
  | dice _ _ face modifiers => face.isNone && modifiers.list.isEmpty
  | group _ _ _ => false

/-- The expression ends in dice without a face. -/
def endsBare (reading : Reading) : Bool :=
  ((reading.first :: reading.rest).getLast (List.cons_ne_nil _ _)).isBare

theorem isEmpty_suffixes (modifiers : Modifiers) :
    modifiers.suffixes.isEmpty = modifiers.list.isEmpty := by
  obtain ⟨algorithm, operations, few⟩ := modifiers
  cases algorithm <;> cases operations <;> rfl

theorem Part.isComplete_or_modified (part : Part) :
    (part.isComplete || !part.modifiers.suffixes.isEmpty) = !part.isBare := by
  cases part with
  | dice quantity letter face modifiers =>
      cases face <;> simp [Part.isComplete, Part.isBare, Part.modifiers, isEmpty_suffixes]
  | group first rest modifiers => rfl

theorem endsBare_cons (first next : Part) (rest : List Part) :
    endsBare ⟨first, next :: rest⟩ = endsBare ⟨next, rest⟩ := by
  simp only [endsBare, List.getLast_cons_cons]

/-! ### Reading up to the character -/

/-- A part is read in front of any text that does not go on with it, since the groups in it
are closed. -/
theorem readPool_closed (fuel : Nat) (part : Part) {after : Text}
    (stops : Stops continues after) (enough : part.text.length ≤ fuel) :
    ∃ pool, Expression.readPool (Expression.readPhrases fuel true) (part.text ++ after) =
      .ok (pool, part.isComplete, part.modifiers.text ++ after) := by
  obtain ⟨pool, read, -⟩ := readPool_text (Expression.readPhrases fuel true) part stops (by
      rintro first rest modifiers rfl
      refine readPhrases_text fuel first rest (Closes.group _) ?_
      simp only [Part.text, List.length_append, List.length_cons] at enough ⊢
      omega)
  exact ⟨pool, read⟩

/-- Parts are read up to a character of no use, which is refused.  The induction is on the
parts, since what is in their groups is closed and read already. -/
theorem readPhrases_stuck (fuel : Nat) (nested : Bool) (first : Part) (rest : List Part)
    {c : Char} (useless : Useless c) (after : Text)
    (enough : (first.text ++ Part.joined rest).length < fuel) :
    Expression.readPhrases fuel nested (first.text ++ (Part.joined rest ++ c :: after)) =
      .error (if endsBare ⟨first, rest⟩ then .whole else .modifier (c :: after)) := by
  induction rest generalizing first fuel with
  | nil =>
      cases fuel with
      | zero => simp at enough
      | succ fuel =>
          have ends := useless.endsPart after
          obtain ⟨pool, read⟩ := readPool_closed fuel first ends.stops
            (by simpa [Part.joined, Nat.lt_succ_iff] using enough)
          simp only [Part.joined, List.nil_append, Expression.readPhrases, read,
            modifiers_text first.modifiers ends, useless.afterJoin?_eq_none,
            useless.close_eq_error, first.isComplete_or_modified, bind, Except.bind]
          cases bare : first.isBare <;> simp [endsBare, bare]
  | cons next rest ih =>
      cases fuel with
      | zero => simp at enough
      | succ fuel =>
          have ends := (ends_joined_cons next rest (c :: after)).endsPart
          obtain ⟨pool, read⟩ := readPool_closed fuel first ends.stops
            (by simp only [List.length_append] at enough; omega)
          have later := ih fuel next (by
            simp only [Part.joined, List.length_append, List.length_cons] at enough ⊢
            omega)
          simp only [Expression.readPhrases, read, modifiers_text first.modifiers ends,
            afterJoin?_joined, later, bind, Except.bind, endsBare_cons]

/-! ### Whole texts -/

/-- A text that is read is not read any more with a character of no use behind it. -/
theorem parse_stuck (defaultFace : Option Text) (reading : Reading)
    (trimmed : Text.trim reading.text = reading.text) {c : Char} (useless : Useless c)
    (after : Text) :
    Expression.parse defaultFace (reading.text ++ c :: after) =
      .error (if reading.endsBare
        then .unreadableExpression (reading.text ++ c :: after.rdropWhile Text.isBlank)
        else .unreadableModifier (c :: after.rdropWhile Text.isBlank)) := by
  have nonempty : reading.text ≠ [] :=
    fun empty => reading.first.text_ne_nil (List.append_eq_nil_iff.mp empty).1
  have stuck := readPhrases_stuck
    ((reading.text ++ c :: after.rdropWhile Text.isBlank).length + 1) false reading.first
    reading.rest useless (after.rdropWhile Text.isBlank) (by
      rw [← Reading.text, List.length_append]
      omega)
  unfold Expression.parse
  rw [Text.trim_append_cons trimmed nonempty useless.noBlank]
  split
  · next empty => simp at empty
  · rw [← List.append_assoc, ← Reading.text] at stuck
    rw [stuck]
    cases reading.endsBare <;> rfl

/-- A foreign letter behind an expression is blamed on a modifier, which is quoted from the
letter on and without the blanks at the end.  Only where the expression ends in dice without
a face, the whole text is blamed. -/
theorem parse_append_letter (defaultFace : Option Text) {e : Text} {terms : List Term}
    (accepted : Expression.parse defaultFace e = .ok terms) (trimmed : Text.trim e = e)
    (nonempty : e ≠ []) {c : Char} (foreign : IsForeign c) (r : Text) :
    ∃ reading : Reading, reading.Spells e ∧
      ∃ fault, Expression.parse defaultFace (e ++ c :: r) = .error fault ∧
        (reading.endsBare = false → fault.kind = .unsupported ∧
          fault.message = Codes.ofString ("the submitted modifier " ++
            Fault.quoted (c :: r.rdropWhile Text.isBlank) ++ " is invalid or not supported")) ∧
        (reading.endsBare = true → fault.kind = .unreadable ∧
          fault.message = Codes.ofString ("the submitted expression " ++
            Fault.quoted (Text.trim (e ++ c :: r)) ++ " is invalid or not supported")) := by
  have read : ∃ reading : Reading, reading.Spells e := by
    rcases parse_sound accepted with ⟨empty, -⟩ | ⟨reading, spells, -⟩
    · exact absurd (trimmed ▸ empty) nonempty
    · exact ⟨reading, trimmed ▸ spells⟩
  obtain ⟨reading, rfl, ahead⟩ := read
  have stuck := parse_stuck defaultFace reading trimmed foreign.useless r
  cases bare : reading.endsBare with
  | false =>
      simp only [bare, Bool.false_eq_true, if_false] at stuck
      refine ⟨reading, ⟨rfl, ahead⟩, _, stuck, fun _ => ⟨rfl, ?_⟩, fun other => ?_⟩
      · exact Fault.message_unreadableModifier _
      · exact absurd (bare.symm.trans other) Bool.false_ne_true
  | true =>
      simp only [bare, if_true] at stuck
      refine ⟨reading, ⟨rfl, ahead⟩, _, stuck, fun other => ?_, fun _ => ⟨rfl, ?_⟩⟩
      · exact absurd (other.symm.trans bare) Bool.false_ne_true
      · rw [Text.trim_append_cons trimmed nonempty foreign.useless.noBlank r]
        exact Fault.message_unreadableExpression _

/-- Behind the group of `2d+(d6!+1)`, a rank letter and the dice after it. -/
theorem parse_append_letter_behind_group :
    ∃ reading : Reading, reading.Spells ['2', 'd', '+', '(', 'd', '6', '!', '+', '1', ')'] ∧
      ∃ fault, Expression.parse (some ['6'])
          (['2', 'd', '+', '(', 'd', '6', '!', '+', '1', ')'] ++ 'h' :: ['d', '6', ' ']) =
            .error fault ∧
        (reading.endsBare = false → fault.kind = .unsupported ∧
          fault.message = Codes.ofString ("the submitted modifier " ++
            Fault.quoted ('h' :: List.rdropWhile Text.isBlank ['d', '6', ' ']) ++
            " is invalid or not supported")) ∧
        (reading.endsBare = true → fault.kind = .unreadable ∧
          fault.message = Codes.ofString ("the submitted expression " ++
            Fault.quoted (Text.trim
              (['2', 'd', '+', '(', 'd', '6', '!', '+', '1', ')'] ++ 'h' :: ['d', '6', ' '])) ++
            " is invalid or not supported")) := by
  have accepted : Expression.parse (some ['6'])
      ['2', 'd', '+', '(', 'd', '6', '!', '+', '1', ')'] = .ok [.dice ['D', '6'] 2 [],
        .group [.dice ['D', '6'] 1 [⟨.explode, ['='], 1⟩, ⟨.arithmetic, ['+'], 1⟩]] []] := rfl
  exact parse_append_letter (some ['6']) accepted rfl (by decide) ⟨by decide, by decide⟩
    ['d', '6', ' ']

/-- Behind dice without a face, the same letter is blamed on the whole text. -/
example : Expression.parse (some ['6']) (['(', 'd', '6', ')', '+', '2', 'd'] ++ 'h' :: [' ']) =
    .error (.unreadableExpression ['(', 'd', '6', ')', '+', '2', 'd', 'h']) :=
  rfl

end Reading

end DicePool
