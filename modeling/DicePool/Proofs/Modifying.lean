/-
Module: DicePool.Proofs.Modifying
Purpose: Algorithms and lists of modifiers are read exactly where the grammar has them.
Main exports: Reading.BeginsWith, Reading.Ends, Reading.EndsPart, Reading.algorithm?_text,
  Reading.modifiers_text, Reading.modifiers_sound, Reading.modifiers_unique
-/
import DicePool.Proofs.Lexing

/-!
Behind a part of an expression there is nothing, a closing parenthesis or a plus sign, and
the plus sign is not that of an operation: `Ends`.

To read a piece it is enough that the text behind it does not go on with one: `EndsPart`.
That is so of any text that begins with a character of no use in a part, whether or not
something is right with the text.
-/

namespace DicePool

namespace Reading

open Lexeme

/-! ### What stands behind a piece -/

/-- The text is empty or begins with one of the characters. -/
def BeginsWith (chars : List Char) (s : Text) : Prop :=
  ∀ c ∈ s.head?, c ∈ chars

theorem BeginsWith.stops {chars : List Char} {s : Text} (begins : BeginsWith chars s)
    {p : Char → Bool} (outside : chars.all (fun c => !p c) = true) : Stops p s := by
  intro c mem
  simpa using List.all_eq_true.mp outside c (begins c mem)

/-- The text stands behind a part: nothing, a closing parenthesis, or a plus sign that
begins no operation. -/
structure Ends (after : Text) : Prop where
  begins : BeginsWith [')', '+'] after
  noOperation : operation? after = none

/-- Something of a part may begin with the character, or go on with it: a number, a comparison,
an algorithm or a face. The signs of operations are not among them. -/
def continues (c : Char) : Bool :=
  Text.isDecimal c || isSelectionLetter c || isComparisonSign c || c == '!' || beginsFace c

theorem continues_eq_false {c : Char} :
    continues c = false ↔ Text.isDecimal c = false ∧ isSelectionLetter c = false ∧
      isComparisonSign c = false ∧ (c == '!') = false ∧ beginsFace c = false := by
  simp only [continues, Bool.or_eq_false_iff, and_assoc]

/-- The text does not go on with anything of a part. -/
structure EndsPart (after : Text) : Prop where
  stops : Stops continues after
  noOperation : operation? after = none

theorem Ends.endsPart {after : Text} (ends : Ends after) : EndsPart after :=
  ⟨ends.begins.stops (by decide), ends.noOperation⟩

theorem Ends.nil : Ends [] :=
  ⟨fun _ mem => by simp at mem, rfl⟩

theorem Ends.closing (after : Text) : Ends (')' :: after) :=
  ⟨fun c mem => by simp [show c = ')' by simpa using mem.symm], rfl⟩

theorem stops_operations (operations : List Operation) {after : Text}
    (stops : Stops continues after) : Stops continues (operationsText operations ++ after) := by
  cases operations with
  | nil => exact stops
  | cons operation rest =>
      rw [operationsText_cons, Operation.text, List.cons_append, stops_cons]
      exact operation.sign.holds (P := fun c => continues c = false) (by decide)

/-- A number ends where nothing of a part goes on. -/
theorem endsNumber_of_stops {after : Text} (stops : Stops continues after) : EndsNumber after := by
  intro c mem
  obtain ⟨noDigit, noLetter, -⟩ := continues_eq_false.mp (stops c mem)
  rw [isSelectionLetter] at noLetter
  rw [mem_dieLetters]
  exact ⟨noDigit, by simp_all⟩

/-- An operation may stand in front of these texts. -/
theorem endsNumber_operations (operations : List Operation) {after : Text}
    (stops : Stops continues after) : EndsNumber (operationsText operations ++ after) :=
  endsNumber_of_stops (stops_operations operations stops)

/-- Modifiers do not begin like a face. -/
theorem stops_modifiers (modifiers : Modifiers) {after : Text} (stops : Stops continues after) :
    Stops beginsFace (modifiers.text ++ after) := by
  obtain ⟨algorithm, operations, _⟩ := modifiers
  rw [Modifiers.text, List.append_assoc]
  cases algorithm with
  | none =>
      exact (stops_operations operations stops).mono fun c begins => by simp [continues, begins]
  | some algorithm =>
      obtain ⟨mark, threshold⟩ := algorithm
      cases mark with
      | explode comparison =>
          simp only [written, Algorithm.text, Mark.text, List.cons_append, stops_cons]
          decide
      | select letters =>
          simp only [written, Algorithm.text, Mark.text, List.cons_append, stops_cons]
          exact letters.action.holds (P := fun c => beginsFace c = false) (by decide)

/-! ### Algorithms -/

theorem selection?_letters (letters : SelectionMark) (after : Text) :
    selection? (letters.action.char :: letters.rank.char :: after) =
      some (Text.upper [letters.action.char, letters.rank.char], after) := by
  have isAction : isSelectionLetter letters.action.char = true :=
    letters.action.holds (P := fun c => isSelectionLetter c = true) (by decide)
  have isRank : isRankLetter letters.rank.char = true :=
    letters.rank.holds (P := fun c => isRankLetter c = true) (by decide)
  simp [selection?, isAction, isRank]

theorem selection?_eq_none {s : Text} (stops : Stops isSelectionLetter s) :
    selection? s = none := by
  cases s with
  | nil => rfl
  | cons action s =>
      cases s with
      | nil => rfl
      | cons rank rest => simp [selection?, (stops_cons ..).mp stops]

theorem selection?_sound {s operator rest : Text} (found : selection? s = some (operator, rest)) :
    ∃ letters : SelectionMark, s = letters.action.char :: letters.rank.char :: rest ∧
      operator = Text.upper [letters.action.char, letters.rank.char] := by
  unfold selection? at found
  split at found
  · next action rank after =>
      split at found
      · next both =>
          simp only [Bool.and_eq_true, isSelectionLetter, isRankLetter, isDieLetter,
            Bool.or_eq_true, beq_iff_eq] at both
          cases found
          exact ⟨⟨⟨action, by simpa [or_assoc] using both.1⟩,
            ⟨rank, by simpa [or_assoc] using both.2⟩⟩,
            rfl, rfl⟩
      · simp at found
  · simp at found

theorem mem_comparisonSigns (c : Char) : c ∈ ['<', '>', '='] ↔ isComparisonSign c = true := by
  simp [isComparisonSign, or_assoc]

/-- The comparison of an explosion, as a modifier names it. -/
def comparisonText : Option (OneOf ['<', '>', '=']) → Text
  | some sign => [sign.char]
  | none => ['=']

theorem explosion?_text (comparison : Option (OneOf ['<', '>', '='])) {after : Text}
    (stops : Stops isComparisonSign after) :
    explosion? ((Mark.explode comparison).text ++ after) =
      some (comparisonText comparison, after) := by
  cases comparison with
  | none =>
      cases after with
      | nil => rfl
      | cons c rest =>
          simp [Mark.text, written, explosion?, comparisonText, (stops_cons ..).mp stops]
  | some sign =>
      simp [Mark.text, written, explosion?, comparisonText, (mem_comparisonSigns _).mp sign.mem]

theorem explosion?_eq_none {s : Text} (stops : Stops (· == '!') s) : explosion? s = none := by
  unfold explosion?
  split <;> simp_all [Stops]

theorem explosion?_sound {s comparison rest : Text}
    (found : explosion? s = some (comparison, rest)) :
    ∃ written : Option (OneOf ['<', '>', '=']), s = (Mark.explode written).text ++ rest ∧
      comparison = comparisonText written := by
  unfold explosion? at found
  split at found
  · next sign after =>
      split at found
      · next isSign =>
          cases found
          exact ⟨some ⟨sign, (mem_comparisonSigns _).mpr isSign⟩, rfl, rfl⟩
      · cases found
        exact ⟨none, rfl, rfl⟩
  · cases found
    exact ⟨none, rfl, rfl⟩
  · simp at found

theorem begins_written_digits (digits : Option Digits) {after : Text} {p : Char → Bool}
    (outside : ∀ c, Text.isPlainDigit c = true → p c = false) (stops : Stops p after) :
    Stops p (written Run.text digits ++ after) := by
  cases digits with
  | none => exact stops
  | some digits =>
      obtain ⟨c, rest, same, digit⟩ := digits.exists_cons
      simp [written, same, outside c digit]

/-- A comparison does not go on with a threshold. -/
theorem stops_threshold (threshold : Option Digits) {after : Text}
    (stops : Stops isComparisonSign after) :
    Stops isComparisonSign (written Run.text threshold ++ after) := by
  apply begins_written_digits threshold _ stops
  intro c digit
  have bounds := Text.toNat_of_isPlainDigit digit
  rw [← Bool.not_eq_true, ← mem_comparisonSigns]
  intro mem
  simp only [List.mem_cons, List.not_mem_nil, or_false] at mem
  rcases mem with rfl | rfl | rfl <;> exact absurd bounds (by decide)

/-- The algorithm as it is read. -/
def Algorithm.suffix (algorithm : Algorithm) : Suffix :=
  match algorithm.mark with
  | .explode comparison =>
      ⟨.explode, comparisonText comparison, algorithm.threshold.map Run.text⟩
  | .select letters =>
      ⟨.dropKeep, Text.upper [letters.action.char, letters.rank.char],
        algorithm.threshold.map Run.text⟩

theorem algorithm?_text (algorithm : Algorithm) {after : Text} (stops : Stops continues after) :
    algorithm? (algorithm.text ++ after) = some (algorithm.suffix, after) := by
  obtain ⟨mark, threshold⟩ := algorithm
  have value := number_written threshold
    (stops.mono fun c digit => by simp [continues, Text.isDecimal_of_isPlainDigit digit])
  rw [Algorithm.text, List.append_assoc]
  cases mark with
  | explode comparison =>
      have compared := stops_threshold threshold
        (stops.mono fun c sign => by simp [continues, sign])
      have noSelection : selection? ((Mark.explode comparison).text ++
          (written Run.text threshold ++ after)) = none :=
        selection?_eq_none (fun c mem => by
          obtain rfl : '!' = c := by simpa [Mark.text] using mem
          rfl)
      simp only [algorithm?, noSelection, explosion?_text comparison compared, value]
      rfl
  | select letters =>
      have selected := selection?_letters letters (written Run.text threshold ++ after)
      simp only [Mark.text, List.cons_append, List.nil_append, algorithm?, selected, value]
      rfl

theorem algorithm?_eq_none {s : Text} (stops : Stops continues s) : algorithm? s = none := by
  rw [algorithm?, selection?_eq_none (stops.mono fun c letter => by simp [continues, letter]),
    explosion?_eq_none (stops.mono fun c mark => by simp [continues, mark])]

theorem algorithm?_sound {s rest : Text} {suffix : Suffix}
    (found : algorithm? s = some (suffix, rest)) :
    ∃ algorithm : Algorithm, s = algorithm.text ++ rest ∧ suffix = algorithm.suffix := by
  unfold algorithm? at found
  split at found
  · next operator marked selected =>
      obtain ⟨letters, rfl, rfl⟩ := selection?_sound selected
      cases read : Lexeme.number marked with
      | mk run behind =>
          obtain ⟨threshold, rfl, rfl⟩ := number_sound read
          simp only [read] at found
          cases found
          refine ⟨⟨.select letters, threshold⟩, ?_, rfl⟩
          simp [Algorithm.text, Mark.text]
  · split at found
    · next comparison marked exploded =>
        obtain ⟨sign, rfl, rfl⟩ := explosion?_sound exploded
        cases read : Lexeme.number marked with
        | mk run behind =>
            obtain ⟨threshold, rfl, rfl⟩ := number_sound read
            simp only [read] at found
            cases found
            refine ⟨⟨.explode sign, threshold⟩, ?_, rfl⟩
            simp [Algorithm.text]
    · simp at found

theorem threshold_injective {one two : Option Digits}
    (same : written Run.text one = written Run.text two) : one = two :=
  (written_digits_unique (stops_nil _) (stops_nil _) (congrArg (· ++ ([] : Text)) same)).1

theorem threshold_ne_comparison (threshold : Option Digits) (sign : OneOf ['<', '>', '='])
    (rest : Text) : written Run.text threshold ≠ sign.char :: rest := by
  intro same
  have stops := stops_threshold threshold (stops_nil isComparisonSign)
  rw [List.append_nil, same, stops_cons] at stops
  rw [(mem_comparisonSigns _).mp sign.mem] at stops
  contradiction

/-- A comparison that may be left out, and a threshold. -/
theorem written_comparison_unique {one two : Option (OneOf ['<', '>', '='])}
    {threshold threshold' : Option Digits}
    (same : written (fun sign => [sign.char]) one ++ written Run.text threshold =
      written (fun sign => [sign.char]) two ++ written Run.text threshold') :
    one = two ∧ threshold = threshold' := by
  cases one with
  | none =>
      cases two with
      | none => exact ⟨rfl, threshold_injective same⟩
      | some sign => exact absurd same (threshold_ne_comparison threshold sign _)
  | some sign =>
      cases two with
      | none => exact absurd same.symm (threshold_ne_comparison threshold' sign _)
      | some sign' =>
          obtain ⟨signs, texts⟩ := List.cons.inj same
          exact ⟨congrArg some (OneOf.ext signs), threshold_injective texts⟩

/-- An algorithm is known by its text. -/
theorem Algorithm.text_injective {one two : Algorithm} (same : one.text = two.text) :
    one = two := by
  have letterNe : ∀ {letters : SelectionMark}, letters.action.char ≠ '!' :=
    fun {letters} => letters.action.holds (P := (· ≠ '!')) (by decide)
  obtain ⟨mark, threshold⟩ := one
  obtain ⟨mark', threshold'⟩ := two
  cases mark with
  | explode comparison =>
      cases mark' with
      | select letters => exact absurd (List.cons.inj same).1.symm letterNe
      | explode comparison' =>
          obtain ⟨rfl, rfl⟩ := written_comparison_unique (List.cons.inj same).2
          rfl
  | select letters =>
      cases mark' with
      | explode comparison => exact absurd (List.cons.inj same).1 letterNe
      | select letters' =>
          obtain ⟨⟨action⟩, ⟨rank⟩⟩ := letters
          obtain ⟨⟨action'⟩, ⟨rank'⟩⟩ := letters'
          obtain ⟨actions, ranks⟩ := List.cons.inj same
          obtain ⟨ranks, texts⟩ := List.cons.inj ranks
          obtain rfl : threshold = threshold' := threshold_injective texts
          cases actions
          cases ranks
          rfl

/-! ### Modifiers -/

theorem operations_text (operations : List Operation) {after : Text} (ends : EndsPart after)
    (limit : Nat) (enough : operations.length ≤ limit) :
    Lexeme.operations limit (operationsText operations ++ after) =
      (operations.map Operation.suffix, after) := by
  induction operations generalizing limit with
  | nil =>
      cases limit with
      | zero => rfl
      | succ limit => simp [operationsText, Lexeme.operations, ends.noOperation]
  | cons operation rest ih =>
      cases limit with
      | zero => simp at enough
      | succ limit =>
          have later := ih limit (by simpa using enough)
          have ahead := endsNumber_operations rest ends.stops
          rw [operationsText_cons, Lexeme.operations, operation?_text operation ahead]
          simp [later]

theorem operations_sound (limit : Nat) {s rest : Text} {suffixes : List Suffix}
    (found : Lexeme.operations limit s = (suffixes, rest)) :
    ∃ operations : List Operation, s = operationsText operations ++ rest ∧
      suffixes = operations.map Operation.suffix ∧ operations.length ≤ limit ∧
      OperationsLookAhead operations rest := by
  induction limit generalizing s rest suffixes with
  | zero =>
      cases found
      exact ⟨[], rfl, rfl, le_rfl, trivial⟩
  | succ limit ih =>
      simp only [Lexeme.operations] at found
      split at found
      · next suffix after read =>
          obtain ⟨operation, rfl, rfl, ahead⟩ := operation?_sound read
          cases read : Lexeme.operations limit after with
          | mk others behind =>
              obtain ⟨operations, rfl, rfl, few, aheadLater⟩ := ih read
              simp only [read] at found
              cases found
              refine ⟨operation :: operations, ?_, rfl, by simpa using few, ?_⟩
              · exact (operationsText_cons ..).symm
              · exact ⟨ahead, aheadLater⟩
      · cases found
        exact ⟨[], rfl, rfl, Nat.zero_le _, trivial⟩

/-- Operations in front of a text that can only stand behind them look ahead to nothing
that goes on with them. -/
theorem operationsLookAhead_of_ends (operations : List Operation) {after : Text}
    (ends : Ends after) : OperationsLookAhead operations after := by
  induction operations with
  | nil => trivial
  | cons operation rest ih =>
      exact ⟨endsNumber_operations rest ends.endsPart.stops, ih⟩

/-- The modifiers as they are read. -/
def Modifiers.suffixes (modifiers : Modifiers) : List Suffix :=
  modifiers.algorithm.toList.map Algorithm.suffix ++ modifiers.operations.map Operation.suffix

theorem modifiers_text (modifiers : Modifiers) {after : Text} (ends : EndsPart after) :
    Lexeme.suffixes (modifiers.text ++ after) = (modifiers.suffixes, after) := by
  obtain ⟨algorithm, operations, few⟩ := modifiers
  have stops := stops_operations operations ends.stops
  rw [Modifiers.text, List.append_assoc]
  cases algorithm with
  | none =>
      simp only [written, List.nil_append, Lexeme.suffixes, algorithm?_eq_none stops]
      exact operations_text operations ends 2 few
  | some algorithm =>
      simp only [written, Lexeme.suffixes, algorithm?_text algorithm stops,
        operations_text operations ends 2 few]
      rfl

theorem modifiers_sound {s rest : Text} {suffixes : List Suffix}
    (found : Lexeme.suffixes s = (suffixes, rest)) :
    ∃ modifiers : Modifiers, s = modifiers.text ++ rest ∧ suffixes = modifiers.suffixes ∧
      OperationsLookAhead modifiers.operations rest := by
  unfold Lexeme.suffixes at found
  split at found
  · next suffix after read =>
      obtain ⟨algorithm, rfl, rfl⟩ := algorithm?_sound read
      cases readLater : Lexeme.operations 2 after with
      | mk others behind =>
          obtain ⟨operations, rfl, rfl, few, ahead⟩ := operations_sound 2 readLater
          simp only [readLater] at found
          cases found
          refine ⟨⟨some algorithm, operations, few⟩, ?_, rfl, ahead⟩
          simp [Modifiers.text, written]
  · obtain ⟨operations, rfl, rfl, few, ahead⟩ := operations_sound 2 found
    exact ⟨⟨none, operations, few⟩, rfl, rfl, ahead⟩

theorem operationsText_injective {one two : List Operation}
    (same : operationsText one = operationsText two) : one = two := by
  induction one generalizing two with
  | nil =>
      cases two with
      | nil => rfl
      | cons operation rest => exact absurd same (List.cons_ne_nil _ _).symm
  | cons operation rest ih =>
      cases two with
      | nil => exact absurd same (List.cons_ne_nil _ _)
      | cons operation' rest' =>
          have read : ∀ (operation : Operation) (rest : List Operation),
              operation? (operationsText (operation :: rest)) =
                some (operation.suffix, operationsText rest) := by
            intro operation rest
            have ahead : EndsNumber (operationsText rest) := by
              simpa using endsNumber_operations rest (stops_nil continues)
            exact operation?_text operation ahead
          have reads := read operation rest
          rw [same, read operation' rest'] at reads
          have rests : operationsText rest = operationsText rest' :=
            (Prod.mk.inj (Option.some.inj reads)).2.symm
          rw [ih rests] at same ⊢
          rw [Operation.text_injective (List.append_cancel_right same)]

theorem Modifiers.text_injective {one two : Modifiers} (same : one.text = two.text) :
    one = two := by
  obtain ⟨algorithm, operations, few⟩ := one
  obtain ⟨algorithm', operations', few'⟩ := two
  have stops : ∀ operations : List Operation, Stops continues (operationsText operations) := by
    intro operations
    simpa using stops_operations operations (stops_nil continues)
  cases algorithm with
  | none =>
      cases algorithm' with
      | none => cases operationsText_injective same; rfl
      | some algorithm' =>
          have reads := algorithm?_text algorithm' (stops operations')
          rw [show algorithm'.text ++ operationsText operations' = operationsText operations from
            same.symm, algorithm?_eq_none (stops operations)] at reads
          contradiction
  | some algorithm =>
      have reads := algorithm?_text algorithm (stops operations)
      cases algorithm' with
      | none =>
          rw [show algorithm.text ++ operationsText operations = operationsText operations' from
            same, algorithm?_eq_none (stops operations')] at reads
          contradiction
      | some algorithm' =>
          have texts : algorithm.text ++ operationsText operations =
            algorithm'.text ++ operationsText operations' := same
          rw [texts, algorithm?_text algorithm' (stops operations')] at reads
          have rests : operationsText operations' = operationsText operations :=
            (Prod.mk.inj (Option.some.inj reads)).2
          cases operationsText_injective rests
          cases Algorithm.text_injective (List.append_cancel_right texts)
          rfl

/-- Two lists of modifiers in front of texts that can only stand behind a part. -/
theorem modifiers_unique {one two : Modifiers} {after other : Text} (ends : Ends after)
    (endsOther : Ends other) (same : one.text ++ after = two.text ++ other) :
    one = two ∧ after = other := by
  have reads := modifiers_text one ends.endsPart
  rw [same, modifiers_text two endsOther.endsPart] at reads
  obtain rfl : other = after := (Prod.mk.inj reads).2
  exact ⟨Modifiers.text_injective (List.append_cancel_right same), rfl⟩

end Reading

end DicePool
