/-
Module: DicePool.Proofs.Continuing
Purpose: What stands before a blamed modifier is the beginning of an expression.
Main exports: Reading.trim_text, Reading.Begins, Reading.BlamesEnd, Reading.readPhrases_blames,
  Reading.begins_before_blamed_modifier
-/
import DicePool.Proofs.Blaming

/-!
A text that is refused is blamed as a whole or from some place on.  Up to that place the
reader has gone through something that can still be completed: nothing at all, parts and the
plus sign behind them, an opening parenthesis, a number without its die letter, or a part that
needs nothing more.  In each case it is known what could have followed, so what was read
begins an expression (`Reading.Begins`).

That the completed text is read needs no look at what was blamed, since no reading of a whole
text can break the condition on what follows an operation, and no expression has blanks
around it (`Reading.trim_text`).
-/

namespace DicePool

/-- What ends both texts, if there is anything, ends both together. -/
theorem stops_reverse_append {p : Char → Bool} {s t : Text} (first : Stops p s.reverse)
    (second : Stops p t.reverse) : Stops p (s ++ t).reverse := by
  rw [List.reverse_append]
  cases reversed : t.reverse with
  | nil => exact first
  | cons c rest =>
      rw [reversed] at second
      exact second

theorem stops_reverse_of_all {p : Char → Bool} {s : Text} (outside : ∀ c ∈ s, p c = false) :
    Stops p s.reverse := by
  intro c mem
  apply outside
  rw [List.mem_reverse.symm]
  exact List.mem_of_mem_head? mem

namespace Reading

open Lexeme

/-! ### No blanks around an expression -/

theorem isBlank_of_mem_digits {digits : Option Digits} {c : Char}
    (mem : c ∈ written Run.text digits) : Text.isBlank c = false := by
  cases digits with
  | none => contradiction
  | some digits => exact Text.isBlank_of_isPlainDigit (digits.all c mem)

theorem isBlank_of_mem_mark {mark : Mark} {c : Char} (mem : c ∈ mark.text) :
    Text.isBlank c = false := by
  cases mark with
  | explode comparison =>
      cases comparison with
      | none =>
          obtain rfl := List.mem_singleton.mp mem
          rfl
      | some sign =>
          rcases List.mem_pair.mp mem with rfl | rfl
          · rfl
          · exact sign.holds (P := fun c => Text.isBlank c = false) (by decide)
  | select letters =>
      rcases List.mem_pair.mp mem with rfl | rfl
      · exact letters.action.holds (P := fun c => Text.isBlank c = false) (by decide)
      · exact letters.rank.holds (P := fun c => Text.isBlank c = false) (by decide)

theorem isBlank_of_mem_operation {operation : Operation} {c : Char}
    (mem : c ∈ operation.text) : Text.isBlank c = false := by
  rcases List.mem_cons.mp mem with rfl | digit
  · exact operation.sign.holds (P := fun c => Text.isBlank c = false) (by decide)
  · exact Text.isBlank_of_isDecimal (operation.digits.all c digit)

/-- Modifiers contain no blanks. -/
theorem isBlank_of_mem_modifiers {modifiers : Modifiers} {c : Char}
    (mem : c ∈ modifiers.text) : Text.isBlank c = false := by
  obtain ⟨algorithm, operations, few⟩ := modifiers
  rcases List.mem_append.mp mem with inAlgorithm | inOperations
  · cases algorithm with
    | none => contradiction
    | some algorithm =>
        rcases List.mem_append.mp inAlgorithm with inMark | inThreshold
        · exact isBlank_of_mem_mark inMark
        · exact isBlank_of_mem_digits inThreshold
  · obtain ⟨operation, -, inOperation⟩ := List.mem_flatMap.mp inOperations
    exact isBlank_of_mem_operation inOperation

/-- A face does not end in a blank. Between the brackets of a list there may be blanks. -/
theorem stops_face_reverse (face : Option Face) :
    Stops Text.isBlank (written Face.text face).reverse := by
  cases face with
  | none => exact stops_nil _
  | some face =>
      cases face with
      | sides digits =>
          exact stops_reverse_of_all fun c mem => Text.isBlank_of_isPlainDigit (digits.all c mem)
      | fudge letter =>
          exact (stops_cons ..).mpr
            (letter.holds (P := fun c => Text.isBlank c = false) (by decide))
      | percent => exact (stops_cons ..).mpr rfl
      | custom list unclosed =>
          rw [written, Face.text, List.reverse_append]
          exact (stops_cons ..).mpr rfl

theorem stops_part_reverse (part : Part) : Stops Text.isBlank part.text.reverse := by
  have modified : ∀ modifiers : Modifiers, Stops Text.isBlank modifiers.text.reverse :=
    fun modifiers => stops_reverse_of_all fun c mem => isBlank_of_mem_modifiers mem
  cases part with
  | dice quantity letter face modifiers =>
      have lettered : Stops Text.isBlank [letter.char].reverse :=
        (stops_cons ..).mpr (letter.holds (P := fun c => Text.isBlank c = false) (by decide))
      have numbered : Stops Text.isBlank (written Run.text quantity).reverse :=
        stops_reverse_of_all fun c mem => isBlank_of_mem_digits mem
      have whole := stops_reverse_append (stops_reverse_append
        (stops_reverse_append numbered lettered) (stops_face_reverse face)) (modified modifiers)
      simpa [Part.text] using whole
  | group first rest modifiers =>
      have closed : Stops Text.isBlank
          ('(' :: first.text ++ Part.joined rest ++ [')']).reverse := by
        rw [List.reverse_append]
        exact (stops_cons ..).mpr rfl
      have whole := stops_reverse_append closed (modified modifiers)
      simpa [Part.text] using whole

theorem stops_joined_reverse (parts : List Part) :
    Stops Text.isBlank (Part.joined parts).reverse := by
  induction parts with
  | nil => exact stops_nil _
  | cons part rest ih =>
      have joining : Stops Text.isBlank ['+'].reverse := (stops_cons ..).mpr rfl
      exact stops_reverse_append (stops_reverse_append joining (stops_part_reverse part)) ih

theorem stops_part (part : Part) : Stops Text.isBlank part.text := by
  cases part with
  | dice quantity letter face modifiers =>
      have lettered : Text.isBlank letter.char = false :=
        letter.holds (P := fun c => Text.isBlank c = false) (by decide)
      rw [Part.text, List.append_assoc]
      apply begins_written_digits quantity fun c digit => Text.isBlank_of_isPlainDigit digit
      exact (stops_cons ..).mpr lettered
  | group first rest modifiers => exact (stops_cons ..).mpr rfl

/-- There are no blanks around an expression. -/
theorem trim_text (reading : Reading) : Text.trim reading.text = reading.text := by
  apply Text.trimBy_eq_self_iff.mpr
  constructor
  · exact (stops_part reading.first).append reading.first.text_ne_nil
  · exact stops_reverse_append (stops_part_reverse reading.first)
      (stops_joined_reverse reading.rest)

/-! ### Beginnings -/

/-- The text begins an expression: with something behind it, it has a reading. No digits are needed
behind it, and so all numbers of the expression stand in the text. -/
def Begins (before : Text) : Prop :=
  ∃ (after : Text) (reading : Reading),
    (∀ c ∈ after, Text.isDecimal c = false) ∧ reading.text = before ++ after

namespace Begins

/-- Behind a number that may be left out, the die letter and a percent sign complete dice. -/
theorem quantity (digits : Option Digits) : Begins (written Run.text digits) := by
  refine ⟨['d', '%'], ⟨.dice digits ⟨'d', by simp⟩ (some .percent) ⟨none, [], by simp⟩, []⟩,
    List.forall_mem_cons.mpr ⟨rfl, List.forall_mem_singleton.mpr rfl⟩, ?_⟩
  simp [Reading.text, Part.text, Part.joined, Modifiers.text, written, operationsText, Face.text]

/-- A part needs nothing more. -/
theorem part (part : Part) : Begins part.text := by
  refine ⟨[], ⟨part, []⟩, nofun, ?_⟩
  rw [Reading.text, Part.joined]

/-- What is completed to further parts goes on behind a plus sign. -/
theorem join (part : Part) {before : Text} (begins : Begins before) :
    Begins (part.text ++ '+' :: before) := by
  obtain ⟨after, reading, noDigits, same⟩ := begins
  refine ⟨after, ⟨part, reading.first :: reading.rest⟩, noDigits, ?_⟩
  rw [Reading.text] at same
  simp [Reading.text, Part.joined, same]

/-- What is completed inside of a group is completed outside of it by closing the group. -/
theorem group {before : Text} (begins : Begins before) : Begins ('(' :: before) := by
  obtain ⟨after, reading, noDigits, same⟩ := begins
  refine ⟨after ++ [')'], ⟨.group reading.first reading.rest ⟨none, [], by simp⟩, []⟩, ?_, ?_⟩
  · rw [List.forall_mem_append]
    exact ⟨noDigits, List.forall_mem_singleton.mpr rfl⟩
  · rw [Reading.text] at same
    simp [Reading.text, Part.text, Part.joined, Modifiers.text, written, operationsText, same]

end Begins

/-- Not all of the text was read: the end that is left over is blamed, and what stands before it
begins an expression. -/
def BlamesEnd (s rest : Text) : Prop :=
  rest ≠ [] ∧ ∃ before, s = before ++ rest ∧ Begins before

/-! ### Where the reader stops -/

/-- The end of a text is never blamed as a modifier. -/
theorem blame_eq_modifier {complete : Bool} {rest blamed : Text}
    (same : Expression.blame complete rest = .modifier blamed) : blamed = rest ∧ rest ≠ [] := by
  unfold Expression.blame at same
  split at same
  · next starts =>
      cases same
      refine ⟨rfl, ?_⟩
      rintro rfl
      contradiction
  · split at same
    · contradiction
    · split at same
      · cases same
        exact ⟨rfl, List.cons_ne_nil _ _⟩
      · contradiction

theorem close_eq_modifier {nested complete : Bool} {rest blamed : Text}
    (stuck : Expression.close nested complete rest = .error (.modifier blamed)) :
    blamed = rest ∧ rest ≠ [] := by
  unfold Expression.close at stuck
  split at stuck
  · contradiction
  · contradiction
  · exact blame_eq_modifier (Except.error.inj stuck)

/-- Where a pool was due, nothing but a number was read, or the blame comes out of a group. -/
theorem readPool_blames {readGroup : Text → Except Blame (List Phrase × Text)} {s rest : Text}
    (stuck : Expression.readPool readGroup s = .error (.modifier rest))
    (inside : ∀ inner, readGroup inner = .error (.modifier rest) → BlamesEnd inner rest) :
    BlamesEnd s rest := by
  unfold Expression.readPool at stuck
  split at stuck
  · next inner =>
      cases read : readGroup inner with
      | ok answer => simp [read, bind, Except.bind, pure, Except.pure] at stuck
      | error blame =>
          simp only [read, bind, Except.bind] at stuck
          cases stuck
          obtain ⟨nonempty, before, rfl, begins⟩ := inside inner read
          exact ⟨nonempty, '(' :: before, rfl, begins.group⟩
  · cases valued : Lexeme.number s with
    | mk value behind =>
        obtain ⟨quantity, rfl, -⟩ := number_sound valued
        simp only [valued] at stuck
        have blamed : Expression.blame false behind = .modifier rest := by
          split at stuck
          · split at stuck
            · contradiction
            · exact Except.error.inj stuck
          · exact Except.error.inj stuck
        obtain ⟨rfl, nonempty⟩ := blame_eq_modifier blamed
        exact ⟨nonempty, written Run.text quantity, rfl, .quantity quantity⟩

/-- Where the reader of phrases blames a modifier, it blames the end of the text.  The induction is
on the fuel, for groups and for further parts alike: what was read of them is completed first,
and then what stands around them. -/
theorem readPhrases_blames (fuel : Nat) {nested : Bool} {s rest : Text}
    (stuck : Expression.readPhrases fuel nested s = .error (.modifier rest)) :
    BlamesEnd s rest := by
  induction fuel generalizing nested s with
  | zero => simp [Expression.readPhrases] at stuck
  | succ fuel ih =>
      simp only [Expression.readPhrases] at stuck
      cases pooled : Expression.readPool (Expression.readPhrases fuel true) s with
      | error blame =>
          simp only [pooled, bind, Except.bind] at stuck
          cases stuck
          exact readPool_blames pooled fun inner grouped => ih grouped
      | ok answer =>
          obtain ⟨pool, complete, behind⟩ := answer
          cases modified : Lexeme.suffixes behind with
          | mk suffixes after =>
              obtain ⟨part, rfl, -, -⟩ := readPart_sound pooled modified (by
                intro inner phrases after grouped
                obtain ⟨tail, closes, parts⟩ := readPhrases_sound fuel grouped
                cases closes
                exact parts)
              simp only [pooled, modified, bind, Except.bind] at stuck
              split at stuck
              · next next joined =>
                  obtain rfl := afterJoin?_sound joined
                  cases later : Expression.readPhrases fuel nested next with
                  | ok answer => simp [later, pure, Except.pure] at stuck
                  | error blame =>
                      simp only [later] at stuck
                      cases stuck
                      obtain ⟨nonempty, before, rfl, begins⟩ := ih later
                      refine ⟨nonempty, part.text ++ '+' :: before, ?_, begins.join part⟩
                      simp
              · cases closed : Expression.close nested (complete || !suffixes.isEmpty) after with
                | ok rest => simp [closed, pure, Except.pure] at stuck
                | error blame =>
                    simp only [closed] at stuck
                    cases stuck
                    obtain ⟨rfl, nonempty⟩ := close_eq_modifier closed
                    exact ⟨nonempty, part.text, rfl, .part part⟩

/-! ### Whole texts -/

/-- A refused text is blamed from the end on that was not read, or as a whole, or it is an
expression with a number that cannot be converted. -/
theorem parse_eq_error {defaultFace : Option Text} {s : Text} {fault : Fault}
    (refused : Expression.parse defaultFace s = .error fault) :
    (∃ rest, fault = .unreadableModifier rest ∧ BlamesEnd (Text.trim s) rest) ∨
      fault = .unreadableExpression (Text.trim s) ∨
      fault = .unconvertedNumber ∧
        ∃ reading : Reading, reading.Spells (Text.trim s) ∧ ¬reading.Converts defaultFace := by
  have parsed := refused
  unfold Expression.parse at refused
  split at refused
  · contradiction
  · split at refused
    · refine .inr (.inr ?_)
      unfold Expression.convert at refused
      split at refused
      · contradiction
      · cases refused
        exact ⟨rfl, not_converts_of_parse parsed⟩
    · cases refused
      exact .inr (.inl rfl)
    · next stuck =>
        cases refused
        exact .inl ⟨_, rfl, readPhrases_blames _ stuck⟩

/-- A modifier is blamed where it stands.  If a text is refused for a modifier, then what is
quoted is an end of the text without the blanks around it, and what stands before it can be
completed to an expression, without any digits.  That is read, unless a number of it is too long,
and then the number stands before what is quoted.  If a text is refused as an expression, then it
is quoted as a whole.  There is one more fault: the text is an expression, but a number of it is too
long. -/
theorem begins_before_blamed_modifier (defaultFace : Option Text) {s : Text} {fault : Fault}
    (refused : Expression.parse defaultFace s = .error fault) :
    (fault.kind = .unsupported →
      ∃ before rest, Text.trim s = before ++ rest ∧ rest ≠ [] ∧
        fault.message = Codes.ofString ("the submitted modifier " ++ Fault.quoted rest ++
          " is invalid or not supported") ∧
        ∃ (after : Text) (reading : Reading), (∀ c ∈ after, Text.isDecimal c = false) ∧
          reading.Spells (before ++ after) ∧
          (reading.Converts defaultFace → Expression.parse defaultFace (before ++ after) =
            .ok (reading.terms (defaultFace.getD []))) ∧
          (¬reading.Converts defaultFace → Expression.parse defaultFace (before ++ after) =
            .error .unconvertedNumber)) ∧
    (fault.kind = .unreadable →
      fault.message = Codes.ofString ("the submitted expression " ++
        Fault.quoted (Text.trim s) ++ " is invalid or not supported")) ∧
    (fault.kind ≠ .unsupported → fault.kind ≠ .unreadable →
      fault = .unconvertedNumber ∧
        ∃ reading : Reading, reading.Spells (Text.trim s) ∧ ¬reading.Converts defaultFace) := by
  rcases parse_eq_error refused with ⟨rest, rfl, nonempty, before, split, begins⟩ | rfl |
    ⟨rfl, spelled⟩
  · refine ⟨fun _ => ⟨before, rest, split, nonempty, ?_, ?_⟩, nofun, fun other => absurd rfl other⟩
    · exact Fault.message_unreadableModifier rest
    · obtain ⟨after, reading, noDigits, same⟩ := begins
      refine ⟨after, reading, noDigits, ⟨same, reading.looksAhead⟩, ?_, ?_⟩
      · rw [← same]
        exact fun converts => parse_text converts reading.trim_text
      · rw [← same]
        exact fun fails => parse_text_of_not_converts fails reading.trim_text
  · exact ⟨nofun, fun _ => Fault.message_unreadableExpression _, fun _ other => absurd rfl other⟩
  · exact ⟨nofun, nofun, fun _ _ => ⟨rfl, spelled⟩⟩

/-- In the group of `d6+(2kh1)` the number of dice was read, and the die letter and the closing
parenthesis could have followed. -/
theorem begins_before_selection_in_group :
    Expression.parse (some ['6']) ['d', '6', '+', '(', '2', 'k', 'h', '1', ')', ' '] =
        .error (.unreadableModifier ['k', 'h', '1', ')']) ∧
      ∃ before rest,
        Text.trim ['d', '6', '+', '(', '2', 'k', 'h', '1', ')', ' '] = before ++ rest ∧
        rest ≠ [] ∧
        (Fault.unreadableModifier ['k', 'h', '1', ')']).message =
          Codes.ofString ("the submitted modifier " ++ Fault.quoted rest ++
            " is invalid or not supported") ∧
        ∃ (after : Text) (reading : Reading), (∀ c ∈ after, Text.isDecimal c = false) ∧
          reading.Spells (before ++ after) ∧
          (reading.Converts (some ['6']) → Expression.parse (some ['6']) (before ++ after) =
            .ok (reading.terms ['6'])) ∧
          (¬reading.Converts (some ['6']) → Expression.parse (some ['6']) (before ++ after) =
            .error .unconvertedNumber) := by
  have refused : Expression.parse (some ['6'])
      ['d', '6', '+', '(', '2', 'k', 'h', '1', ')', ' '] =
        .error (.unreadableModifier ['k', 'h', '1', ')']) := rfl
  exact ⟨refused, (begins_before_blamed_modifier (some ['6']) refused).1 rfl⟩

/-- The fault that remains does occur: a number of dice that is too long is neither blamed on a
modifier nor on the whole text. -/
theorem long_quantity_is_not_blamed :
    ∃ fault, Expression.parse (some ['6'])
        (List.replicate Numeral.digitLimit '0' ++ ['1', 'd', '6']) = .error fault ∧
      fault.kind ≠ .unsupported ∧ fault.kind ≠ .unreadable := by
  let quantity : Digits := ⟨List.replicate Numeral.digitLimit '0' ++ ['1'], by simp,
    Numeral.isPlainDigit_of_mem_padded⟩
  let six : Face := .sides ⟨['6'], by simp, List.forall_mem_singleton.mpr rfl⟩
  let reading : Reading :=
    ⟨.dice (some quantity) ⟨'d', by simp⟩ (some six) ⟨none, [], by simp⟩, []⟩
  have same : List.replicate Numeral.digitLimit '0' ++ ['1', 'd', '6'] = reading.text := by
    simp [reading, quantity, six, Reading.text, Part.text, Part.joined, Modifiers.text, written,
      operationsText, Face.text]
  refine ⟨.unconvertedNumber, ?_, by decide, by decide⟩
  rw [same]
  refine parse_text_of_not_converts ?_ reading.trim_text
  rintro ⟨⟨-, converts, -⟩, -⟩
  exact Numeral.not_length_padded_le (converts quantity rfl)

/-- A third operation is blamed behind two others, and nothing behind a bare die letter is. -/
example : Expression.parse (some ['6']) ['d', '+', '1', '*', '2', '-', '3'] =
      .error (.unreadableModifier ['-', '3']) ∧
    Expression.parse (some ['6']) ['d', '1', '+', 'd', 'x'] =
      .error (.unreadableExpression ['d', '1', '+', 'd', 'x']) :=
  ⟨rfl, rfl⟩

end Reading

end DicePool
