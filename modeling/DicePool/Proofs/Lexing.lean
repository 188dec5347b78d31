/-
Module: DicePool.Proofs.Lexing
Purpose: Numbers, faces and operations are read exactly where the grammar has them.
Main exports: Stops, Reading.Run.takeWhile_append, Reading.number_written, Reading.face?_text,
  Reading.face?_sound, Reading.operation?_text, Reading.operation?_sound
-/
import Mathlib.Data.List.Basic
import Mathlib.Data.List.TakeWhile
import DicePool.Proofs.Grammar

/-!
For every class of pieces three things are shown of the function that reads them:

* a piece in front of a text that cannot continue it is read, and the text is left;
* whatever is read was such a piece;
* so two pieces in front of such texts are the same if the whole texts are.

What cannot continue a piece is said by the character with which a text begins: it
`Stops` a class of characters.
-/

namespace DicePool

/-- What is shown of the conversion of each item is shown of the conversion of a list. -/
theorem mapM_eq_some_iff {α β : Type} {f : α → Option β} {P : α → Prop} {g : α → β}
    (each : ∀ a b, f a = some b ↔ P a ∧ g a = b) (items : List α) (results : List β) :
    items.mapM f = some results ↔ (∀ a ∈ items, P a) ∧ items.map g = results := by
  induction items generalizing results with
  | nil => simp
  | cons item rest ih =>
      simp only [List.mapM_cons, Option.bind_eq_bind, Option.bind_eq_some_iff, each, ih,
        Option.pure_def, Option.some.injEq, List.forall_mem_cons, List.map_cons]
      constructor
      · rintro ⟨first, ⟨fits, rfl⟩, others, ⟨fit, rfl⟩, rfl⟩
        exact ⟨⟨fits, fit⟩, rfl⟩
      · rintro ⟨⟨fits, fit⟩, rfl⟩
        exact ⟨_, ⟨fits, rfl⟩, _, ⟨fit, rfl⟩, rfl⟩

/-- The text does not begin with a character of the class. -/
def Stops (p : Char → Bool) (after : Text) : Prop :=
  ∀ c ∈ after.head?, p c = false

@[simp] theorem stops_nil (p : Char → Bool) : Stops p [] := by
  simp [Stops]

@[simp] theorem stops_cons (p : Char → Bool) (c : Char) (after : Text) :
    Stops p (c :: after) ↔ p c = false := by
  simp [Stops]

theorem Stops.takeWhile {p : Char → Bool} {after : Text} (stops : Stops p after) :
    after.takeWhile p = [] := by
  cases after with
  | nil => rfl
  | cons c rest => simp [(stops_cons ..).mp stops]

theorem Stops.dropWhile {p : Char → Bool} {after : Text} (stops : Stops p after) :
    after.dropWhile p = after := by
  cases after with
  | nil => rfl
  | cons c rest => simp [(stops_cons ..).mp stops]

/-- What does not begin a text does not begin it if more follows. -/
theorem Stops.append {p : Char → Bool} {s : Text} (stops : Stops p s) (nonempty : s ≠ [])
    {after : Text} : Stops p (s ++ after) := by
  cases s with
  | nil => contradiction
  | cons c rest => exact stops

/-- What a class stops at, every class in it stops at. -/
theorem Stops.mono {p q : Char → Bool} {s : Text} (stops : Stops p s)
    (le : ∀ c, q c = true → p c = true) : Stops q s := by
  intro c mem
  rw [← Bool.not_eq_true]
  intro holds
  exact Bool.false_ne_true ((stops c mem).symm.trans (le c holds))

theorem stops_dropWhile (p : Char → Bool) (s : Text) : Stops p (s.dropWhile p) := by
  induction s with
  | nil => simp
  | cons c rest ih =>
      rw [List.dropWhile_cons]
      split
      · exact ih
      · next other => simpa using other

/-! ### Characters -/

namespace Text

theorem toNat_of_isPlainDigit {c : Char} (digit : isPlainDigit c = true) :
    48 ≤ c.toNat ∧ c.toNat ≤ 57 :=
  Char.isDigit_iff_toNat.mp digit

/-- The digits `0` to `9` have the values that they are named for. -/
theorem decimalValue?_of_isPlainDigit {c : Char} (digit : isPlainDigit c = true) :
    decimalValue? c = some (c.toNat - 48) := by
  have bounds := toNat_of_isPlainDigit digit
  have found : (decide (0x30 ≤ c.toNat) && decide (c.toNat < 0x30 + 10)) = true := by
    simp
    omega
  have first : decimalZeros = 0x30 :: decimalZeros.tail := rfl
  rw [decimalValue?, first, List.find?_cons]
  simp only [found]
  rfl

theorem isDecimal_of_isPlainDigit {c : Char} (digit : isPlainDigit c = true) :
    isDecimal c = true := by
  rw [isDecimal, decimalValue?_of_isPlainDigit digit]
  rfl

theorem upperChar_of_isPlainDigit {c : Char} (digit : isPlainDigit c = true) :
    upperChar c = [c] := by
  have bounds := toNat_of_isPlainDigit digit
  have noLetter : ¬('a'.val ≤ c.val ∧ c.val ≤ 'z'.val) := by
    rintro ⟨lower, -⟩
    have least : 97 ≤ c.toNat := UInt32.le_iff_toNat_le.mp lower
    omega
  have same : c.toUpper = c := dif_neg noLetter
  rw [upperChar, if_pos (by omega), same]

theorem upper_of_all {s : Text} (same : ∀ c ∈ s, upperChar c = [c]) : upper s = s := by
  induction s with
  | nil => rfl
  | cons c rest ih =>
      rw [upper, List.flatMap_cons, same c (by simp)]
      exact congrArg (c :: ·) (ih fun c mem => same c (by simp [mem]))

/-- Digits have no case. -/
theorem upper_of_all_isPlainDigit {s : Text} (digits : ∀ c ∈ s, isPlainDigit c = true) :
    upper s = s := by
  apply upper_of_all
  intro c mem
  exact upperChar_of_isPlainDigit (digits c mem)

end Text

/-- Plain digits are decimal digits with the same values. -/
theorem Numeral.natOfDecimals_eq_natOfPlain {s : Text}
    (digits : ∀ c ∈ s, Text.isPlainDigit c = true) : natOfDecimals s = natOfPlain s := by
  have values : s.filterMap Text.decimalValue? = s.map fun c => c.toNat - 48 := by
    rw [← List.filterMap_eq_map]
    exact List.filterMap_congr fun c mem => Text.decimalValue?_of_isPlainDigit (digits c mem)
  rw [natOfDecimals, ofDigitValues, values, List.foldl_map]
  rfl

/-- A one behind any number of zeros is written in plain digits. -/
theorem Numeral.isPlainDigit_of_mem_padded {zeros : Nat} :
    ∀ c ∈ List.replicate zeros '0' ++ ['1'], Text.isPlainDigit c = true := by
  intro c mem
  obtain zero | one := List.mem_append.mp mem
  · obtain rfl := List.eq_of_mem_replicate zero
    rfl
  · obtain rfl := List.mem_singleton.mp one
    rfl

/-- Zeros in front count as digits: behind enough of them even a one is too long. -/
theorem Numeral.not_length_padded_le :
    ¬(List.replicate digitLimit '0' ++ ['1']).length ≤ digitLimit := by
  rw [List.length_append, List.length_replicate]
  exact Nat.not_succ_le_self digitLimit

namespace Reading

open Lexeme

/-- A character out of a list has what each character of the list is seen to have. -/
theorem OneOf.holds {forms : List Char} (letter : OneOf forms) {P : Char → Prop}
    [DecidablePred P] (all : forms.all (fun c => decide (P c)) = true) : P letter.char :=
  of_decide_eq_true (List.all_eq_true.mp all letter.char letter.mem)

/-! ### Runs and numbers -/

namespace Run

variable {p : Char → Bool}

theorem takeWhile_append (run : Run p) {after : Text} (stops : Stops p after) :
    (run.text ++ after).takeWhile p = run.text := by
  rw [List.takeWhile_append_of_pos run.all, stops.takeWhile, List.append_nil]

theorem dropWhile_append (run : Run p) {after : Text} (stops : Stops p after) :
    (run.text ++ after).dropWhile p = after := by
  rw [List.dropWhile_append_of_pos run.all, stops.dropWhile]

/-- The first character of a run is of its class. -/
theorem exists_cons (run : Run p) : ∃ c rest, run.text = c :: rest ∧ p c = true := by
  obtain ⟨c, rest, same⟩ := List.exists_cons_of_ne_nil run.nonempty
  exact ⟨c, rest, same, run.all c (by simp [same])⟩

/-- What a text begins with is a run, unless it is nothing. -/
theorem exists_of_takeWhile_ne_nil {s : Text} (nonempty : s.takeWhile p ≠ []) :
    ∃ run : Run p, run.text = s.takeWhile p ∧ s = run.text ++ s.dropWhile p :=
  ⟨⟨s.takeWhile p, nonempty, fun _ mem => List.mem_takeWhile_imp mem⟩, rfl,
    (List.takeWhile_append_dropWhile).symm⟩

end Run

/-- Digits in front of a text do not begin with anything else. -/
theorem digits_append_ne (digits : Digits) {after rest : Text} {c : Char}
    (noDigit : Text.isPlainDigit c = false) : digits.text ++ after ≠ c :: rest := by
  intro same
  obtain ⟨first, others, text, digit⟩ := digits.exists_cons
  rw [text] at same
  rw [(List.cons.inj same).1, noDigit] at digit
  contradiction

theorem digits_text_ne (digits : Digits) {rest : Text} {c : Char}
    (noDigit : Text.isPlainDigit c = false) : digits.text ≠ c :: rest := by
  have apart : digits.text ++ [] ≠ c :: rest := digits_append_ne digits noDigit
  rwa [List.append_nil] at apart

theorem digits?_text (digits : Digits) {after : Text} (stops : Stops Text.isPlainDigit after) :
    digits? (digits.text ++ after) = some (digits.text, after) := by
  simp [digits?, digits.takeWhile_append stops, digits.dropWhile_append stops, digits.nonempty]

theorem digits?_eq_none {s : Text} (stops : Stops Text.isPlainDigit s) : digits? s = none := by
  simp [digits?, stops.takeWhile]

theorem digits?_sound {s run rest : Text} (found : digits? s = some (run, rest)) :
    ∃ digits : Digits, digits.text = run ∧ s = digits.text ++ rest := by
  simp only [digits?] at found
  split at found
  · simp at found
  · next nonempty =>
      obtain ⟨digits, same, split⟩ := Run.exists_of_takeWhile_ne_nil (by simpa using nonempty)
      simp only [Option.some.injEq, Prod.mk.injEq] at found
      exact ⟨digits, same.trans found.1, found.2 ▸ split⟩

/-- A number that may be left out is read in front of anything but a digit. -/
theorem number_written (digits : Option Digits) {after : Text}
    (stops : Stops Text.isPlainDigit after) :
    Lexeme.number (written Run.text digits ++ after) = (digits.map Run.text, after) := by
  cases digits with
  | none => simp [Lexeme.number, written, digits?_eq_none stops]
  | some digits => simp [Lexeme.number, written, digits?_text digits stops]

theorem number_sound {run : Option Text} {s rest : Text}
    (found : Lexeme.number s = (run, rest)) :
    ∃ digits : Option Digits, s = written Run.text digits ++ rest ∧
      run = digits.map Run.text := by
  unfold Lexeme.number at found
  split at found
  · next read =>
      obtain ⟨digits, rfl, split⟩ := digits?_sound read
      cases found
      exact ⟨some digits, split, rfl⟩
  · cases found
    exact ⟨none, rfl, rfl⟩

/-- Two numbers that may be left out, in front of texts without a digit. -/
theorem written_digits_unique {one two : Option Digits} {after other : Text}
    (stops : Stops Text.isPlainDigit after) (stopsOther : Stops Text.isPlainDigit other)
    (same : written Run.text one ++ after = written Run.text two ++ other) :
    one = two ∧ after = other := by
  have rests : after = other := by
    have reads := number_written one stops
    rw [same, number_written two stopsOther] at reads
    exact (Prod.mk.inj reads).2.symm
  subst rests
  have texts := List.append_cancel_right same
  refine ⟨?_, rfl⟩
  cases one with
  | none =>
      cases two with
      | none => rfl
      | some two => exact absurd texts.symm two.nonempty
  | some one =>
      cases two with
      | none => exact absurd texts one.nonempty
      | some two => exact congrArg some (Run.ext texts)

/-! ### Faces -/

/-- The characters with which a face may begin. -/
def beginsFace (c : Char) : Bool :=
  c == '%' || c == 'f' || c == 'F' || c == '[' || Text.isPlainDigit c

theorem face?_text (face : Face) {after : Text} (stops : Stops Text.isPlainDigit after) :
    face? (face.text ++ after) = some (Text.upper face.text, after) := by
  cases face with
  | sides digits =>
      rw [Face.text, Text.upper_of_all_isPlainDigit digits.all]
      unfold face?
      split
      · next begins => exact absurd begins (digits_append_ne digits (by decide))
      · next begins => exact absurd begins (digits_append_ne digits (by decide))
      · next begins => exact absurd begins (digits_append_ne digits (by decide))
      · next begins => exact absurd begins (digits_append_ne digits (by decide))
      · exact digits?_text digits stops
  | fudge letter =>
      rw [Face.text, List.singleton_append]
      exact letter.holds (P := fun c => face? (c :: after) = some (Text.upper [c], after)) (by
        simp [face?]
        decide)
  | percent => rfl
  | custom list unclosed =>
      have all : ∀ c ∈ list, (c != ']') = true := by
        intro c mem
        simp only [bne_iff_ne, ne_eq]
        rintro rfl
        exact unclosed mem
      simp [Face.text, face?, List.takeWhile_append_of_pos all, List.dropWhile_append_of_pos all]

theorem face?_eq_none {s : Text} (stops : Stops beginsFace s) : face? s = none := by
  cases s with
  | nil => rfl
  | cons c rest =>
      simp only [stops_cons, beginsFace, Bool.or_eq_false_iff, beq_eq_false_iff_ne] at stops
      obtain ⟨⟨⟨⟨percent, lower⟩, upper⟩, bracket⟩, noDigit⟩ := stops
      simp [face?, percent, lower, upper, bracket, digits?_eq_none, noDigit]

theorem face?_sound {s name rest : Text} (found : face? s = some (name, rest)) :
    ∃ face : Face, s = face.text ++ rest ∧ name = Text.upper face.text := by
  unfold face? at found
  split at found
  · cases found
    exact ⟨.percent, rfl, rfl⟩
  · cases found
    exact ⟨.fudge ⟨'f', by simp⟩, rfl, by decide⟩
  · cases found
    exact ⟨.fudge ⟨'F', by simp⟩, rfl, by decide⟩
  · next inner =>
      split at found
      · next after closed =>
          cases found
          have unclosed : ']' ∉ inner.takeWhile (· != ']') := by
            intro mem
            simpa using List.mem_takeWhile_imp mem
          refine ⟨.custom _ unclosed, ?_, rfl⟩
          have split := (List.takeWhile_append_dropWhile (p := (· != ']')) (l := inner)).symm
          rw [closed] at split
          simpa [Face.text] using split
      · simp at found
  · obtain ⟨digits, rfl, split⟩ := digits?_sound found
    exact ⟨.sides digits, split, (Text.upper_of_all_isPlainDigit digits.all).symm⟩

/-- A face is known by its text. -/
theorem Face.text_injective {one two : Face} (same : one.text = two.text) : one = two := by
  have noDigit : ∀ {digits : Digits} {letter : OneOf ['f', 'F']}, digits.text ≠ [letter.char] :=
    fun {_ letter} => digits_text_ne _
      (letter.holds (P := fun c => Text.isPlainDigit c = false) (by decide))
  have noPercent : ∀ {letter : OneOf ['f', 'F']}, letter.char ≠ '%' :=
    fun {letter} => letter.holds (P := (· ≠ '%')) (by decide)
  have noBracket : ∀ {letter : OneOf ['f', 'F']}, letter.char ≠ '[' :=
    fun {letter} => letter.holds (P := (· ≠ '[')) (by decide)
  cases one with
  | sides digits =>
      cases two with
      | sides digits' => exact congrArg sides (Run.ext same)
      | fudge letter => exact absurd same noDigit
      | percent => exact absurd same (digits_text_ne digits (by decide))
      | custom list unclosed => exact absurd same (digits_text_ne digits (by decide))
  | fudge letter =>
      cases two with
      | sides digits => exact absurd same.symm noDigit
      | fudge letter' => exact congrArg fudge (OneOf.ext (List.cons.inj same).1)
      | percent => exact absurd (List.cons.inj same).1 noPercent
      | custom list unclosed => exact absurd (List.cons.inj same).1 noBracket
  | percent =>
      cases two with
      | sides digits => exact absurd same.symm (digits_text_ne digits (by decide))
      | fudge letter => exact absurd (List.cons.inj same).1.symm noPercent
      | percent => rfl
      | custom list unclosed => exact absurd (List.cons.inj same).1 (by decide)
  | custom list unclosed =>
      cases two with
      | sides digits => exact absurd same.symm (digits_text_ne digits (by decide))
      | fudge letter => exact absurd (List.cons.inj same).1.symm noBracket
      | percent => exact absurd (List.cons.inj same).1 (by decide)
      | custom list' unclosed' =>
          have lists : list = list' := by simpa [Face.text] using same
          subst lists
          rfl

/-! ### Operations -/

theorem mem_dieLetters (c : Char) : c ∈ ['d', 'D'] ↔ isDieLetter c = true := by
  simp [isDieLetter]

theorem mem_operationSigns (c : Char) :
    c ∈ ['+', '-', '*', '/', '^'] ↔ isOperationSign c = true := by
  simp [isOperationSign, or_assoc]

theorem startsDie_eq_false {s : Text} (ends : EndsNumber s) : startsDie s = false := by
  cases s with
  | nil => rfl
  | cons c rest =>
      have noLetter := (ends c rfl).2
      rwa [mem_dieLetters, Bool.not_eq_true] at noLetter

theorem endsNumber_iff {s : Text} :
    EndsNumber s ↔ Stops Text.isDecimal s ∧ startsDie s = false := by
  constructor
  · intro ends
    exact ⟨fun c mem => (ends c mem).1, startsDie_eq_false ends⟩
  · rintro ⟨stops, noDie⟩ c mem
    cases s with
    | nil => simp at mem
    | cons first rest =>
        obtain rfl : first = c := by simpa using mem
        refine ⟨stops first rfl, ?_⟩
        rw [mem_dieLetters, Bool.not_eq_true]
        exact noDie

/-- The operation as it is read. -/
def Operation.suffix (operation : Operation) : Suffix :=
  ⟨.arithmetic, [operation.sign.char], some operation.digits.text⟩

theorem operation?_text (operation : Operation) {after : Text} (ends : EndsNumber after) :
    operation? (operation.text ++ after) = some (operation.suffix, after) := by
  obtain ⟨stops, noDie⟩ := endsNumber_iff.mp ends
  have sign := (mem_operationSigns _).mp operation.sign.mem
  simp [Operation.text, operation?, sign, operation.digits.takeWhile_append stops,
    operation.digits.dropWhile_append stops, operation.digits.nonempty, noDie,
    Operation.suffix]

theorem operation?_sound {s rest : Text} {suffix : Suffix}
    (found : operation? s = some (suffix, rest)) :
    ∃ operation : Operation, s = operation.text ++ rest ∧ suffix = operation.suffix ∧
      EndsNumber rest := by
  cases s with
  | nil => simp [operation?] at found
  | cons sign s =>
      simp only [operation?] at found
      split at found
      · next isSign =>
          split at found
          · simp at found
          · next proper =>
              simp only [Bool.or_eq_true, List.isEmpty_iff, not_or, Bool.not_eq_true] at proper
              obtain ⟨digits, same, split⟩ := Run.exists_of_takeWhile_ne_nil proper.1
              cases found
              refine ⟨⟨⟨sign, (mem_operationSigns _).mpr isSign⟩, digits⟩, ?_, ?_, ?_⟩
              · exact congrArg (sign :: ·) split
              · rw [Operation.suffix, same]
              · exact endsNumber_iff.mpr ⟨stops_dropWhile _ _, proper.2⟩
      · simp at found

theorem Operation.text_injective {one two : Operation} (same : one.text = two.text) :
    one = two := by
  obtain ⟨sign, digits⟩ := one
  obtain ⟨sign', digits'⟩ := two
  obtain ⟨signs, runs⟩ := List.cons.inj same
  cases OneOf.ext signs
  cases Run.ext runs
  rfl

theorem operationsText_cons (operation : Operation) (operations : List Operation) (after : Text) :
    operationsText (operation :: operations) ++ after =
      operation.text ++ (operationsText operations ++ after) := by
  simp [operationsText]

end Reading

end DicePool
