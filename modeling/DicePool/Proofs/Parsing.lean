/-
Module: DicePool.Proofs.Parsing
Purpose: Expressions are read exactly where the grammar has them, and in one way only.
Main exports: Reading.Closes, Reading.readPhrases_text, Reading.readPhrases_sound,
  Reading.Part.text_unique, Reading.terms?_phrases, Reading.parse_eq_ok_iff_spells
-/
import DicePool.Expression.Reader
import DicePool.Proofs.Modifying

/-!
The reader is followed phrase by phrase.  Its fuel is a bound on the length of the parts that
are still to be read, and both directions are inductions on it:

* parts in front of what closes them are read as what the reader returns;
* whatever the reader goes through was such parts.

What was read becomes what the parts say exactly where their numbers can be converted, by
recursion through the parts.

That a text has one reading only needs no reader: a part in front of a text that can stand
behind it is known by the whole text, by recursion through the parts.
-/

namespace DicePool

namespace Reading

open Lexeme

/-! ### Between the parts -/

/-- The die letter ends the number before it. -/
theorem isDecimal_dieLetter (letter : OneOf ['d', 'D']) : Text.isDecimal letter.char = false :=
  letter.holds (P := fun c => Text.isDecimal c = false) (by decide)

theorem stops_dieLetter (letter : OneOf ['d', 'D']) (after : Text) :
    Stops Text.isPlainDigit (letter.char :: after) := by
  rw [stops_cons]
  exact letter.holds (P := fun c => Text.isPlainDigit c = false) (by decide)

/-- `tail` closes the parts before it and leaves `after`: the parenthesis of a group, or
the end of the text outside of any. -/
inductive Closes : Bool → Text → Text → Prop where
  | group (after : Text) : Closes true (')' :: after) after
  | whole : Closes false [] []

theorem Closes.ends {nested : Bool} {tail after : Text} (closes : Closes nested tail after) :
    Ends tail := by
  cases closes with
  | group => exact Ends.closing after
  | whole => exact Ends.nil

theorem close_eq_ok_iff {nested complete : Bool} {rest after : Text} :
    Expression.close nested complete rest = .ok after ↔ Closes nested rest after := by
  constructor
  · intro closed
    unfold Expression.close at closed
    split at closed
    · cases closed
      exact Closes.group _
    · cases closed
      exact Closes.whole
    · contradiction
  · intro closes
    cases closes <;> rfl

/-- The modifiers of a part. -/
def Part.modifiers : Part → Modifiers
  | dice _ _ _ modifiers => modifiers
  | group _ _ modifiers => modifiers

theorem Part.text_ne_nil (part : Part) : part.text ≠ [] := by
  cases part <;> simp [Part.text]

/-- A plus sign in front of a part begins no operation: behind its digits, if there are
any, stands the die letter. -/
theorem operation?_join (part : Part) (after : Text) :
    operation? ('+' :: (part.text ++ after)) = none := by
  cases part with
  | group first rest modifiers =>
      simp [Part.text, operation?, show Text.isDecimal '(' = false by decide]
  | dice quantity letter face modifiers =>
      have isLetter := (mem_dieLetters _).mp letter.mem
      have noDigit := isDecimal_dieLetter letter
      cases quantity with
      | none => simp [Part.text, written, operation?, noDigit]
      | some digits =>
          have decimal : ∀ c ∈ digits.text, Text.isDecimal c = true :=
            fun c mem => Text.isDecimal_of_isPlainDigit (digits.all c mem)
          simp [Part.text, written, operation?, List.dropWhile_append_of_pos decimal,
            noDigit, startsDie, isLetter]

/-- A further part stands behind a part, whatever follows it. -/
theorem ends_joined_cons (part : Part) (rest : List Part) (tail : Text) :
    Ends (Part.joined (part :: rest) ++ tail) := by
  refine ⟨?_, ?_⟩
  · intro c mem
    obtain rfl : '+' = c := by simpa [Part.joined] using mem
    decide
  · rw [Part.joined, List.append_assoc]
    exact operation?_join part _

theorem ends_joined (parts : List Part) {tail : Text} (ends : Ends tail) :
    Ends (Part.joined parts ++ tail) := by
  cases parts with
  | nil => exact ends
  | cons part rest => exact ends_joined_cons part rest tail

theorem afterJoin?_joined (part : Part) (rest : List Part) (tail : Text) :
    Expression.afterJoin? (Part.joined (part :: rest) ++ tail) =
      some (part.text ++ (Part.joined rest ++ tail)) := by
  simp [Part.joined, Expression.afterJoin?, operation?_join]

/-! ### From parts to phrases -/

namespace Part

mutual

/-- The part as it is read. -/
def phrase : Part → Phrase
  | dice quantity _ face modifiers =>
      .dice (quantity.map Run.text) (face.map fun face => Text.upper face.text) modifiers.suffixes
  | group first rest modifiers => .group (phrase first :: phrases rest) modifiers.suffixes

/-- Further parts as they are read. -/
def phrases : List Part → List Phrase
  | [] => []
  | part :: rest => phrase part :: phrases rest

end

end Part

/-- What begins no face does not go on with one either. -/
theorem face?_text_behind (face : Face) {after : Text} (stops : Stops beginsFace after) :
    face? (face.text ++ after) = some (Text.upper face.text, after) :=
  face?_text face (stops.mono fun c digit => by simp [beginsFace, digit])

/-- A face that may be left out, in front of modifiers. -/
theorem readFace_written (quantity : Option Text) (face : Option Face)
    {after : Text} (stops : Stops beginsFace after) :
    Expression.readFace quantity (written Face.text face ++ after) =
      (.dice quantity (face.map fun face => Text.upper face.text) [], face.isSome, after) := by
  cases face with
  | none => simp [written, Expression.readFace, face?_eq_none stops]
  | some face => simp [written, Expression.readFace, face?_text_behind face stops]

/-- Dice do not begin like a group. -/
theorem dice_ne_group (quantity : Option Digits) (letter : OneOf ['d', 'D'])
    {after other : Text} :
    written Run.text quantity ++ letter.char :: after ≠ '(' :: other := by
  cases quantity with
  | none =>
      intro same
      exact letter.holds (P := (· ≠ '(')) (by decide) (List.cons.inj same).1
  | some digits => exact digits_append_ne digits (by decide)

/-- Dice in front of modifiers. -/
theorem readPool_dice (readGroup : Text → Except Blame (List Phrase × Text))
    (quantity : Option Digits) (letter : OneOf ['d', 'D']) (face : Option Face) {after : Text}
    (stops : Stops beginsFace after) :
    Expression.readPool readGroup
        (written Run.text quantity ++ letter.char :: (written Face.text face ++ after)) =
      .ok (.dice (quantity.map Run.text) (face.map fun face => Text.upper face.text) [],
        face.isSome, after) := by
  have isLetter := (mem_dieLetters _).mp letter.mem
  have value := number_written quantity
    (stops_dieLetter letter (written Face.text face ++ after))
  have faced := readFace_written (quantity.map Run.text) face stops
  unfold Expression.readPool
  split
  · next inner group => exact absurd group (dice_ne_group quantity letter)
  · simp [value, isLetter, faced]

/-- Whether the pool of the part needs nothing more: dice without a face could get one. -/
def Part.isComplete : Part → Bool
  | dice _ _ face _ => face.isSome
  | group _ _ _ => true

/-- A part in front of a text that does not go on with it. A group is read where its parts
are. -/
theorem readPool_text (readGroup : Text → Except Blame (List Phrase × Text)) (part : Part)
    {after : Text} (stops : Stops continues after)
    (inside : ∀ first rest modifiers, part = .group first rest modifiers →
      readGroup (first.text ++ (Part.joined rest ++ ')' :: (modifiers.text ++ after))) =
        .ok (first.phrase :: Part.phrases rest, modifiers.text ++ after)) :
    ∃ pool, Expression.readPool readGroup (part.text ++ after) =
        .ok (pool, part.isComplete, part.modifiers.text ++ after) ∧
      pool.suffixed part.modifiers.suffixes = part.phrase := by
  cases part with
  | dice quantity letter face modifiers =>
      have read := readPool_dice readGroup quantity letter face (stops_modifiers modifiers stops)
      refine ⟨_, by simpa [Part.text, Part.modifiers, Part.isComplete] using read, ?_⟩
      · simp [Phrase.suffixed, Part.phrase, Part.modifiers]
  | group first rest modifiers =>
      have read := inside first rest modifiers rfl
      refine ⟨.group (first.phrase :: Part.phrases rest) [], ?_, ?_⟩
      · simp only [Part.text, List.cons_append, List.append_assoc, Expression.readPool, read]
        rfl
      · simp [Phrase.suffixed, Part.phrase, Part.modifiers]

/-- Parts in front of what closes them are read, with as much fuel as they have
characters and one more. -/
theorem readPhrases_text (fuel : Nat) {nested : Bool} (first : Part)
    (rest : List Part) {tail after : Text} (closes : Closes nested tail after)
    (enough : (first.text ++ Part.joined rest).length < fuel) :
    Expression.readPhrases fuel nested (first.text ++ (Part.joined rest ++ tail)) =
      .ok (first.phrase :: Part.phrases rest, after) := by
  induction fuel generalizing nested first rest tail after with
  | zero => simp at enough
  | succ fuel ih =>
      have ends := ends_joined rest closes.ends
      obtain ⟨pool, read, meant⟩ := readPool_text (Expression.readPhrases fuel true) first
        ends.endsPart.stops (by
          rintro inner others modifiers rfl
          refine ih inner others (Closes.group _) ?_
          simp only [Part.text, List.length_append, List.length_cons] at enough ⊢
          omega)
      have suffixed := modifiers_text first.modifiers ends.endsPart
      simp only [Expression.readPhrases, read, suffixed, bind, Except.bind, meant]
      cases rest with
      | nil =>
          have noJoin : Expression.afterJoin? tail = none := by
            cases closes <;> rfl
          have closed : Expression.close nested
              (first.isComplete || !first.modifiers.suffixes.isEmpty) tail = .ok after :=
            close_eq_ok_iff.mpr closes
          simp only [Part.joined, List.nil_append, noJoin, closed]
          rfl
      | cons next rest =>
          have later := ih next rest closes (by
            simp only [Part.joined, List.length_append, List.length_cons] at enough ⊢
            omega)
          simp only [afterJoin?_joined, later]
          rfl

/-! ### From phrases to parts -/

/-- What the reader of a pool goes through: dice, or an opening parenthesis and a group. -/
theorem readPool_sound {readGroup : Text → Except Blame (List Phrase × Text)} {s rest : Text}
    {pool : Phrase} {complete : Bool}
    (found : Expression.readPool readGroup s = .ok (pool, complete, rest)) :
    (∃ (quantity : Option Digits) (letter : OneOf ['d', 'D']) (face : Option Face),
      s = written Run.text quantity ++ letter.char :: (written Face.text face ++ rest) ∧
      pool = .dice (quantity.map Run.text) (face.map fun face => Text.upper face.text) []) ∨
    ∃ inner phrases, s = '(' :: inner ∧ readGroup inner = .ok (phrases, rest) ∧
      pool = .group phrases [] := by
  unfold Expression.readPool at found
  split at found
  · next inner =>
      right
      cases read : readGroup inner with
      | error blame => simp [read, bind, Except.bind] at found
      | ok answer =>
          simp only [read, bind, Except.bind, pure, Except.pure] at found
          cases found
          exact ⟨inner, answer.1, rfl, read, rfl⟩
  · left
    cases valued : Lexeme.number s with
    | mk run behind =>
        obtain ⟨quantity, rfl, rfl⟩ := number_sound valued
        simp only [valued] at found
        split at found
        · next c after _ =>
            split at found
            · next isLetter =>
                refine ⟨quantity, ⟨c, (mem_dieLetters c).mpr isLetter⟩, ?_⟩
                unfold Expression.readFace at found
                split at found
                · next name behind faced =>
                    obtain ⟨face, rfl, rfl⟩ := face?_sound faced
                    cases found
                    exact ⟨some face, rfl, rfl⟩
                · cases found
                  exact ⟨none, rfl, rfl⟩
            · contradiction
        · contradiction

theorem afterJoin?_sound {s next : Text} (joined : Expression.afterJoin? s = some next) :
    s = '+' :: next := by
  unfold Expression.afterJoin? at joined
  split at joined
  · split at joined
    · cases joined
      rfl
    · contradiction
  · contradiction

/-- Parts that are read as `phrases` stand in `s` in front of `tail`. -/
def Found (s : Text) (phrases : List Phrase) (tail : Text) : Prop :=
  ∃ (first : Part) (rest : List Part), s = first.text ++ (Part.joined rest ++ tail) ∧
    phrases = first.phrase :: Part.phrases rest ∧
    first.LooksAhead (Part.joined rest ++ tail) ∧ Part.LooksAheadEach rest tail

/-- A pool and its modifiers are a part, if what the reader of groups goes through is
parts and a closing parenthesis. -/
theorem readPart_sound {readGroup : Text → Except Blame (List Phrase × Text)}
    {s behind rest : Text} {pool : Phrase} {complete : Bool} {suffixes : List Suffix}
    (pooled : Expression.readPool readGroup s = .ok (pool, complete, behind))
    (suffixed : Lexeme.suffixes behind = (suffixes, rest))
    (inside : ∀ {inner phrases after}, readGroup inner = .ok (phrases, after) →
      Found inner phrases (')' :: after)) :
    ∃ part : Part, s = part.text ++ rest ∧ pool.suffixed suffixes = part.phrase ∧
      part.LooksAhead rest := by
  obtain ⟨modifiers, rfl, rfl, ahead⟩ := modifiers_sound suffixed
  rcases readPool_sound pooled with
    ⟨quantity, letter, face, rfl, rfl⟩ | ⟨inner, phrases, rfl, grouped, rfl⟩
  · refine ⟨.dice quantity letter face modifiers, ?_, ?_, ahead⟩
    · simp [Part.text]
    · simp [Phrase.suffixed, Part.phrase]
  · obtain ⟨first, others, rfl, rfl, firstAhead, othersAhead⟩ := inside grouped
    refine ⟨.group first others modifiers, ?_, ?_, firstAhead, othersAhead, ahead⟩
    · simp [Part.text]
    · simp [Phrase.suffixed, Part.phrase]

/-- Whatever the reader of phrases goes through is parts and what closes them. -/
theorem readPhrases_sound (fuel : Nat) {nested : Bool} {s after : Text}
    {phrases : List Phrase}
    (found : Expression.readPhrases fuel nested s = .ok (phrases, after)) :
    ∃ tail, Closes nested tail after ∧ Found s phrases tail := by
  induction fuel generalizing nested s after phrases with
  | zero => simp [Expression.readPhrases] at found
  | succ fuel ih =>
      simp only [Expression.readPhrases] at found
      cases pooled : Expression.readPool (Expression.readPhrases fuel true) s with
      | error blame => simp [pooled, bind, Except.bind] at found
      | ok answer =>
          obtain ⟨pool, complete, behind⟩ := answer
          cases suffixed : Lexeme.suffixes behind with
          | mk suffixes rest =>
              obtain ⟨part, rfl, meant, ahead⟩ := readPart_sound pooled suffixed (by
                intro inner phrases after grouped
                obtain ⟨tail, closes, parts⟩ := ih grouped
                cases closes
                exact parts)
              simp only [pooled, suffixed, bind, Except.bind, meant] at found
              split at found
              · next next joined =>
                  cases later : Expression.readPhrases fuel nested next with
                  | error blame => simp [later] at found
                  | ok answer =>
                      obtain ⟨tail, closes, second, others, rfl, same, othersAhead⟩ := ih later
                      obtain rfl := afterJoin?_sound joined
                      simp only [later, same, pure, Except.pure] at found
                      cases found
                      refine ⟨tail, closes, part, second :: others, ?_, rfl, ?_, othersAhead⟩
                      · simp [Part.joined]
                      · simpa [Part.joined] using ahead
              · cases closed : Expression.close nested (complete || !suffixes.isEmpty) rest with
                | error blame => simp [closed] at found
                | ok rest =>
                    simp only [closed, pure, Except.pure] at found
                    cases found
                    exact ⟨_, close_eq_ok_iff.mp closed, part, [], rfl, rfl, ahead, trivial⟩

/-! ### From phrases to terms -/

theorem numberOr?_written {default n : Nat} {digits : Option Digits} :
    numberOr? default (digits.map Run.text) = some n ↔
      NumberConverts digits ∧ number default digits = n := by
  cases digits with
  | none => simp [numberOr?, NumberConverts, number]
  | some digits =>
      simp [numberOr?, Numeral.convert?, NumberConverts, number,
        Numeral.natOfDecimals_eq_natOfPlain digits.all]

theorem Algorithm.modifier?_suffix (algorithm : Algorithm) (modifier : Modifier) :
    algorithm.suffix.modifier? = some modifier ↔
      NumberConverts algorithm.threshold ∧ algorithm.modifier = modifier := by
  obtain ⟨(_ | sign) | letters, threshold⟩ := algorithm <;>
    simp [Algorithm.suffix, Algorithm.modifier, Suffix.modifier?, comparisonText,
      Option.map_eq_some_iff, numberOr?_written, and_assoc]

theorem Operation.modifier?_suffix (operation : Operation) (modifier : Modifier) :
    operation.suffix.modifier? = some modifier ↔
      operation.digits.text.length ≤ Numeral.digitLimit ∧ operation.modifier = modifier := by
  simp [Operation.suffix, Operation.modifier, Suffix.modifier?, numberOr?, Numeral.convert?]

/-- Modifiers become what they say where their numbers can be converted. -/
theorem Modifiers.mapM_suffixes {modifiers : Modifiers} {list : List Modifier} :
    modifiers.suffixes.mapM Suffix.modifier? = some list ↔
      modifiers.Converts ∧ modifiers.list = list := by
  have algorithms := mapM_eq_some_iff Algorithm.modifier?_suffix modifiers.algorithm.toList
  have operations := mapM_eq_some_iff Operation.modifier?_suffix modifiers.operations
  simp only [Modifiers.suffixes, List.mapM_append, List.mapM_map, Function.comp_def,
    Option.bind_eq_bind, Option.bind_eq_some_iff, algorithms, operations, Option.pure_def,
    Option.some.injEq, Option.mem_toList]
  constructor
  · rintro ⟨_, ⟨algorithm, rfl⟩, _, ⟨operations, rfl⟩, rfl⟩
    exact ⟨⟨algorithm, operations⟩, rfl⟩
  · rintro ⟨converts, rfl⟩
    exact ⟨_, ⟨converts.algorithm, rfl⟩, _, ⟨converts.operations, rfl⟩, rfl⟩

mutual

/-- A part becomes what it says where its numbers can be converted. -/
theorem Part.term?_phrase (defaultFace : Option Text) : ∀ (part : Part) {term : Term},
    part.phrase.term? defaultFace = some term ↔
      part.Converts defaultFace ∧ part.term (defaultFace.getD []) = term
  | .dice quantity letter face modifiers, term => by
      simp only [Part.phrase, Phrase.term?, Option.bind_eq_bind, Option.bind_eq_some_iff,
        numberOr?_written, Modifiers.mapM_suffixes, Option.pure_def, Option.some.injEq,
        Part.Converts, Part.term]
      constructor
      · rintro ⟨name, faced, _, ⟨counted, rfl⟩, _, ⟨modified, rfl⟩, rfl⟩
        cases face <;> cases defaultFace <;> simp_all
      · rintro ⟨faced, ⟨counted, modified⟩, rfl⟩
        cases face <;> cases defaultFace <;> simp_all
  | .group first rest modifiers, term => by
      simp only [Part.phrase, Phrase.term?, Phrase.terms?, Option.bind_eq_bind,
        Option.bind_eq_some_iff, Part.term?_phrase defaultFace first,
        Part.terms?_phrases defaultFace rest, Modifiers.mapM_suffixes, Option.pure_def,
        Option.some.injEq, Part.Converts, Part.term]
      constructor
      · rintro ⟨_, ⟨_, ⟨one, rfl⟩, _, ⟨others, rfl⟩, rfl⟩, _, ⟨modified, rfl⟩, rfl⟩
        exact ⟨⟨one, others, modified⟩, rfl⟩
      · rintro ⟨⟨one, others, modified⟩, rfl⟩
        exact ⟨_, ⟨_, ⟨one, rfl⟩, _, ⟨others, rfl⟩, rfl⟩, _, ⟨modified, rfl⟩, rfl⟩

theorem Part.terms?_phrases (defaultFace : Option Text) : ∀ (parts : List Part)
    {terms : List Term}, Phrase.terms? defaultFace (Part.phrases parts) = some terms ↔
      Part.ConvertsEach defaultFace parts ∧ Part.terms (defaultFace.getD []) parts = terms
  | [], terms => by simp [Part.phrases, Phrase.terms?, Part.ConvertsEach, Part.terms]
  | part :: rest, terms => by
      simp only [Part.phrases, Phrase.terms?, Option.bind_eq_bind, Option.bind_eq_some_iff,
        Part.term?_phrase defaultFace part, Part.terms?_phrases defaultFace rest,
        Option.pure_def, Option.some.injEq, Part.ConvertsEach, Part.terms]
      constructor
      · rintro ⟨_, ⟨one, rfl⟩, _, ⟨others, rfl⟩, rfl⟩
        exact ⟨⟨one, others⟩, rfl⟩
      · rintro ⟨⟨one, others⟩, rfl⟩
        exact ⟨_, ⟨one, rfl⟩, _, ⟨others, rfl⟩, rfl⟩

end

/-- The expression as it is read. -/
def phrases (reading : Reading) : List Phrase :=
  Part.phrases (reading.first :: reading.rest)

/-- What is read becomes what the expression says where its numbers can be converted. -/
theorem terms?_phrases {defaultFace : Option Text} {reading : Reading} {terms : List Term} :
    Phrase.terms? defaultFace reading.phrases = some terms ↔
      reading.Converts defaultFace ∧ reading.terms (defaultFace.getD []) = terms :=
  Part.terms?_phrases defaultFace (reading.first :: reading.rest)

/-! ### One reading -/

/-- A face that may be left out, in front of what stands behind a pool. -/
theorem written_face_unique {one two : Option Face} {after other : Text}
    (stops : Stops beginsFace after) (stopsOther : Stops beginsFace other)
    (same : written Face.text one ++ after = written Face.text two ++ other) :
    one = two ∧ after = other := by
  cases one with
  | none =>
      cases two with
      | none => exact ⟨rfl, same⟩
      | some two =>
          have reads := face?_text_behind two stopsOther
          rw [show two.text ++ other = after from same.symm, face?_eq_none stops] at reads
          contradiction
  | some one =>
      have reads := face?_text_behind one stops
      cases two with
      | none =>
          rw [show one.text ++ after = other from same, face?_eq_none stopsOther] at reads
          contradiction
      | some two =>
          rw [show one.text ++ after = two.text ++ other from same,
            face?_text_behind two stopsOther] at reads
          obtain rfl : other = after := (Prod.mk.inj (Option.some.inj reads)).2
          exact ⟨congrArg some (Face.text_injective (List.append_cancel_right same)), rfl⟩

mutual

/-- A part in front of a text that can stand behind it is known by the whole text. -/
theorem Part.text_unique : ∀ {one two : Part} {after other : Text}, Ends after → Ends other →
    one.text ++ after = two.text ++ other → one = two ∧ after = other
  | .dice quantity letter face modifiers, .dice quantity' letter' face' modifiers',
      after, other, ends, endsOther, same => by
      simp only [Part.text, List.append_assoc, List.cons_append] at same
      obtain ⟨rfl, lettered⟩ := written_digits_unique (stops_dieLetter letter _)
        (stops_dieLetter letter' _) same
      obtain ⟨letters, faced⟩ := List.cons.inj lettered
      obtain ⟨rfl, modified⟩ := written_face_unique
        (stops_modifiers modifiers ends.endsPart.stops)
        (stops_modifiers modifiers' endsOther.endsPart.stops) faced
      obtain ⟨rfl, rfl⟩ := modifiers_unique ends endsOther modified
      rw [OneOf.ext letters]
      exact ⟨rfl, rfl⟩
  | .dice quantity letter face modifiers, .group first rest modifiers',
      after, other, _, _, same => by
      simp only [Part.text, List.append_assoc, List.cons_append] at same
      exact absurd same (dice_ne_group quantity letter)
  | .group first rest modifiers', .dice quantity letter face modifiers,
      after, other, _, _, same => by
      simp only [Part.text, List.append_assoc, List.cons_append] at same
      exact absurd same.symm (dice_ne_group quantity letter)
  | .group first rest modifiers, .group first' rest' modifiers',
      after, other, ends, endsOther, same => by
      simp only [Part.text, List.append_assoc, List.cons_append] at same
      obtain ⟨rfl, others⟩ := Part.text_unique (ends_joined rest (Ends.closing _))
        (ends_joined rest' (Ends.closing _)) (List.cons.inj same).2
      obtain ⟨rfl, closed⟩ := Part.joined_unique (Closes.group _) (Closes.group _) others
      obtain ⟨rfl, rfl⟩ := modifiers_unique ends endsOther (List.cons.inj closed).2
      exact ⟨rfl, rfl⟩

/-- The same for further parts in front of what closes them. -/
theorem Part.joined_unique : ∀ {one two : List Part} {nested nested' : Bool}
    {tail tail' after other : Text}, Closes nested tail after → Closes nested' tail' other →
    Part.joined one ++ tail = Part.joined two ++ tail' → one = two ∧ tail = tail'
  | [], [], _, _, _, _, _, _, _, _, same => ⟨rfl, same⟩
  | [], _ :: _, _, _, _, _, _, _, closes, _, same => by
      cases closes <;> exact absurd same (by simp [Part.joined])
  | _ :: _, [], _, _, _, _, _, _, _, closes, same => by
      cases closes <;> exact absurd same (by simp [Part.joined])
  | part :: rest, part' :: rest', _, _, _, _, _, _, closes, closes', same => by
      simp only [Part.joined, List.append_assoc, List.cons_append] at same
      obtain ⟨rfl, others⟩ := Part.text_unique (ends_joined rest closes.ends)
        (ends_joined rest' closes'.ends) (List.cons.inj same).2
      obtain ⟨rfl, tails⟩ := Part.joined_unique closes closes' others
      exact ⟨rfl, tails⟩

end

mutual

/-- In front of a text that can stand behind it, a part always looks ahead to nothing that
goes on with its operations. -/
theorem Part.looksAhead_of_ends : ∀ (part : Part) {after : Text}, Ends after →
    part.LooksAhead after
  | .dice _ _ _ modifiers, _, ends => operationsLookAhead_of_ends modifiers.operations ends
  | .group first rest modifiers, _, ends =>
      ⟨Part.looksAhead_of_ends first (ends_joined rest (Ends.closing _)),
        Part.looksAheadEach_of_ends rest (Ends.closing _),
        operationsLookAhead_of_ends modifiers.operations ends⟩

theorem Part.looksAheadEach_of_ends : ∀ (parts : List Part) {after : Text}, Ends after →
    Part.LooksAheadEach parts after
  | [], _, _ => trivial
  | part :: rest, _, ends =>
      ⟨Part.looksAhead_of_ends part (ends_joined rest ends),
        Part.looksAheadEach_of_ends rest ends⟩

end

/-- The condition on what follows an operation excludes no reading of a whole text. -/
theorem looksAhead (reading : Reading) : reading.LooksAhead :=
  ⟨by simpa using reading.first.looksAhead_of_ends (ends_joined reading.rest Ends.nil),
    Part.looksAheadEach_of_ends reading.rest Ends.nil⟩

/-! ### Whole texts -/

/-- A text that is taken apart is read, and what is read is converted. -/
theorem parse_eq_convert (defaultFace : Option Text) (reading : Reading) {s : Text}
    (trimmed : Text.trim s = reading.text) :
    Expression.parse defaultFace s = Expression.convert defaultFace reading.phrases := by
  have reads := readPhrases_text (reading.text.length + 1) reading.first reading.rest
    Closes.whole (Nat.lt_succ_self _)
  rw [List.append_nil, ← Reading.text] at reads
  unfold Expression.parse
  rw [trimmed]
  split
  · next empty => exact absurd (List.append_eq_nil_iff.mp empty).1 reading.first.text_ne_nil
  · simp only [reads]
    rfl

/-- A text that is taken apart means its terms, if its numbers can be converted. -/
theorem parse_text {defaultFace : Option Text} {reading : Reading}
    (converts : reading.Converts defaultFace) {s : Text} (trimmed : Text.trim s = reading.text) :
    Expression.parse defaultFace s = .ok (reading.terms (defaultFace.getD [])) := by
  rw [parse_eq_convert defaultFace reading trimmed, Expression.convert,
    terms?_phrases.mpr ⟨converts, rfl⟩]

/-- Otherwise one of its numbers is to blame. -/
theorem parse_text_of_not_converts {defaultFace : Option Text} {reading : Reading}
    (fails : ¬reading.Converts defaultFace) {s : Text} (trimmed : Text.trim s = reading.text) :
    Expression.parse defaultFace s = .error .unconvertedNumber := by
  rw [parse_eq_convert defaultFace reading trimmed, Expression.convert]
  split
  · next terms converted => exact absurd (terms?_phrases.mp converted).1 fails
  · rfl

/-- A text in which the reader gets to the end is taken apart by what was read. -/
theorem exists_spells_of_readPhrases {s rest : Text} {phrases : List Phrase}
    (read : Expression.readPhrases (s.length + 1) false s = .ok (phrases, rest)) :
    ∃ reading : Reading, reading.Spells s ∧ reading.phrases = phrases := by
  obtain ⟨tail, closes, first, others, same, rfl, ahead⟩ := readPhrases_sound _ read
  cases closes
  rw [List.append_nil] at same ahead
  exact ⟨⟨first, others⟩, ⟨same.symm, ahead⟩, rfl⟩

/-- A text that is read is blank or is taken apart. -/
theorem parse_sound {defaultFace : Option Text} {s : Text} {terms : List Term}
    (parsed : Expression.parse defaultFace s = .ok terms) :
    (Text.trim s = [] ∧ terms = []) ∨
      ∃ reading : Reading, reading.Spells (Text.trim s) ∧ reading.Converts defaultFace ∧
        reading.terms (defaultFace.getD []) = terms := by
  unfold Expression.parse at parsed
  split at parsed
  · next empty =>
      cases parsed
      exact .inl ⟨empty, rfl⟩
  · right
    split at parsed
    · next read =>
        obtain ⟨reading, spells, rfl⟩ := exists_spells_of_readPhrases read
        unfold Expression.convert at parsed
        split at parsed
        · next converted =>
            cases parsed
            exact ⟨reading, spells, terms?_phrases.mp converted⟩
        · contradiction
    · contradiction
    · contradiction

/-- A text of which a number is to blame is taken apart. -/
theorem not_converts_of_parse {defaultFace : Option Text} {s : Text}
    (parsed : Expression.parse defaultFace s = .error .unconvertedNumber) :
    ∃ reading : Reading, reading.Spells (Text.trim s) ∧ ¬reading.Converts defaultFace := by
  unfold Expression.parse at parsed
  split at parsed
  · contradiction
  · split at parsed
    · next read =>
        obtain ⟨reading, spells, rfl⟩ := exists_spells_of_readPhrases read
        refine ⟨reading, spells, fun converts => ?_⟩
        rw [Expression.convert, terms?_phrases.mpr ⟨converts, rfl⟩] at parsed
        contradiction
    · simp at parsed
    · simp at parsed

/-- A text has at most one reading. -/
theorem text_injective {one two : Reading} (same : one.text = two.text) : one = two := by
  obtain ⟨first, rest⟩ := one
  obtain ⟨first', rest'⟩ := two
  obtain ⟨rfl, others⟩ := Part.text_unique (ends_joined rest Ends.nil)
    (ends_joined rest' Ends.nil) (by simpa [Reading.text] using same)
  obtain ⟨rfl, -⟩ := Part.joined_unique Closes.whole Closes.whole others
  rfl

/-- The reader accepts exactly the grammar, up to the length of numbers.  A text is read if
and only if, without the blanks around it, it is empty or has a reading of which all numbers
can be converted; what is read are the terms of that reading, of which there is never more
than one.  Where the reading has a number that cannot be converted, that is the fault. -/
theorem parse_eq_ok_iff_spells (defaultFace : Option Text) (s : Text) :
    (∀ terms, Expression.parse defaultFace s = .ok terms ↔
      (Text.trim s = [] ∧ terms = []) ∨
        ∃ reading : Reading, reading.Spells (Text.trim s) ∧ reading.Converts defaultFace ∧
          reading.terms (defaultFace.getD []) = terms) ∧
    (Expression.parse defaultFace s = .error .unconvertedNumber ↔
      ∃ reading : Reading, reading.Spells (Text.trim s) ∧ ¬reading.Converts defaultFace) ∧
    ∀ one two : Reading, one.Spells (Text.trim s) → two.Spells (Text.trim s) → one = two := by
  refine ⟨fun terms => ⟨parse_sound, ?_⟩, ⟨not_converts_of_parse, ?_⟩, ?_⟩
  · rintro (⟨empty, rfl⟩ | ⟨reading, spells, converts, rfl⟩)
    · simp [Expression.parse, empty]
    · exact parse_text converts spells.1.symm
  · rintro ⟨reading, spells, fails⟩
    exact parse_text_of_not_converts fails spells.1.symm
  · intro one two spells spellsToo
    exact text_injective (spells.1.trans spellsToo.1.symm)

/-- An expression that adds a number with more digits than can be converted is refused. -/
theorem long_operand_is_not_converted :
    ∃ reading : Reading,
      reading.Spells
        (Text.trim (['d', '6', '+'] ++ List.replicate Numeral.digitLimit '0' ++ ['1'])) ∧
      Expression.parse (some ['6'])
          (['d', '6', '+'] ++ List.replicate Numeral.digitLimit '0' ++ ['1']) =
        .error .unconvertedNumber := by
  have digits : ∀ c ∈ List.replicate Numeral.digitLimit '0' ++ ['1'], Text.isDecimal c = true :=
    fun c mem => Text.isDecimal_of_isPlainDigit (Numeral.isPlainDigit_of_mem_padded c mem)
  let operation : Operation := ⟨⟨'+', by simp⟩, ⟨_, by simp, digits⟩⟩
  let six : Face := .sides ⟨['6'], by simp, List.forall_mem_singleton.mpr rfl⟩
  let reading : Reading :=
    ⟨.dice none ⟨'d', by simp⟩ (some six) ⟨none, [operation], by simp⟩, []⟩
  have trimmed : Text.trim (['d', '6', '+'] ++ List.replicate Numeral.digitLimit '0' ++ ['1']) =
      reading.text := by
    simp [reading, six, operation, Reading.text, Part.text, Part.joined, Modifiers.text, written,
      operationsText, Operation.text, Face.text, Text.trim, Text.trimBy,
      show Text.isBlank 'd' = false by decide, show Text.isBlank '1' = false by decide]
  refine ⟨reading, ⟨trimmed.symm, reading.looksAhead⟩, parse_text_of_not_converts ?_ trimmed⟩
  rintro ⟨⟨-, -, converts⟩, -⟩
  exact Numeral.not_length_padded_le (converts.operations operation (by simp))

/-- In `d+3+2d` the first plus sign adds and the second one begins a term. -/
example : Expression.parse (some ['6']) ['d', '+', '3', '+', '2', 'd'] =
    .ok [.dice ['D', '6'] 1 [⟨.arithmetic, ['+'], 3⟩], .dice ['D', '6'] 2 []] :=
  rfl

end Reading

end DicePool
