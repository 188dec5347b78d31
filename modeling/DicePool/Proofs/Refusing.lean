/-
Module: DicePool.Proofs.Refusing
Purpose: How the building of a text can fail, and how a question to what was built can.
Main exports: Fault.Expected, Orderly, Die.orderly_read, Workshop.orderly_modify,
  Workshop.orderly_term, Workshop.expected_of_build, Workshop.named_or_replying_of_build
-/
import DicePool.Proofs.Building
import DicePool.Proofs.Canonical
import DicePool.Proofs.Completing
import DicePool.Proofs.Continuing

/-!
A result is orderly (`Orderly`) if it is there, or if it is missing for a fault of one of the four
named kinds or because of a number that is too long.  Checks that are orderly one by one are so in
a row, where each may rely on what those before it have made: so it is enough to look at every
single check.

Of the faults without a name only that of long numbers can come up.  Another one could come from
the text of a die, whose test for digits lets through marks that are no decimal digits; no
expression gets as far as that, since its dice have digits of the plain sort.
-/

namespace DicePool

/-- The fault has one of the four names, or a number is too long. -/
def Fault.Expected (fault : Fault) : Prop :=
  fault.kind.isNamed = true ∨ fault = .numberTooLong

/-- What goes wrong, if anything does, is to be expected. -/
def Orderly {β : Type} (result : Except Fault β) : Prop :=
  ∀ fault, result = .error fault → fault.Expected

section

variable {β γ : Type}

theorem orderly_ok (value : β) : Orderly (.ok value) := by
  intro fault failed
  contradiction

theorem orderly_error {fault : Fault} (expected : fault.Expected) :
    Orderly (.error fault : Except Fault β) := by
  intro other failed
  cases failed
  exact expected

theorem orderly_named {fault : Fault} (named : fault.kind.isNamed = true) :
    Orderly (.error fault : Except Fault β) :=
  orderly_error (.inl named)

theorem orderly_tooLong : Orderly (.error .numberTooLong : Except Fault β) :=
  orderly_error (.inr rfl)

/-- A fault with a name is put into words, or a number that it quotes is too long. -/
theorem orderly_raised {fault : Fault} (named : fault.kind.isNamed = true) :
    Orderly (.error fault.raised : Except Fault β) := by
  unfold Fault.raised
  split
  · exact orderly_named named
  · exact orderly_tooLong

/-- Orderly steps may follow each other. The second one gets what the first one has made. -/
theorem Orderly.bind {result : Except Fault β} {next : β → Except Fault γ}
    (orderly : Orderly result)
    (later : ∀ value, result = .ok value → Orderly (next value)) : Orderly (result >>= next) := by
  cases result with
  | error fault => exact orderly_error (orderly fault rfl)
  | ok value => exact later value rfl

/-- So may orderly work, whatever is asked on the way. -/
theorem Orderly.andThen {work : Assembly β} {next : β → Assembly γ} (orderly : Orderly work.result)
    (later : ∀ value, work.result = .ok value → Orderly (next value).result) :
    Orderly (work >>= next).result := by
  rw [Assembly.result_bind]
  exact orderly.bind later

end

/-! ### Dice -/

namespace Die

theorem orderly_withSides (sides : Int) : Orderly (withSides sides) := by
  unfold withSides
  split
  · exact orderly_raised rfl
  · exact orderly_ok _

theorem orderly_withFaces (faces : List Int) : Orderly (withFaces faces) := by
  unfold withFaces
  split
  · exact orderly_raised rfl
  · exact orderly_ok _

theorem orderly_readCustom (text : Text) : Orderly (readCustom text) := by
  unfold readCustom
  split
  · split
    · split
      · exact orderly_withFaces _
      · exact orderly_named rfl
    · exact orderly_named rfl
  · exact orderly_named rfl

/-- Where every digit mark is a decimal digit, only the length of the number is left to be wrong. -/
theorem orderly_readSided {text : Text}
    (plain : ∀ c ∈ Text.upper (Text.trim text),
      Text.isDigitMark c = true → Text.isDecimal c = true) :
    Orderly (readSided text) := by
  unfold readSided
  split
  · next digits same =>
      split
      · next marks =>
          have decimal : digits.all Text.isDecimal = true := by
            rw [List.all_eq_true]
            intro c mem
            apply plain c (by simp [same, mem])
            exact List.all_eq_true.mp (Bool.and_eq_true_iff.mp marks).2 c mem
          rw [if_pos decimal]
          split
          · exact orderly_withSides _
          · exact orderly_tooLong
      · exact orderly_named rfl
  · exact orderly_named rfl

/-- The text announces a list of faces, or its digits are of the plain sort. -/
def Legible (text : Text) : Prop :=
  text.contains '[' = true ∨ Text.MadeOf ['D', 'F', '%', '-'] text

theorem orderly_read {text : Text} (legible : Legible text) : Orderly (read text) := by
  unfold read
  split
  · exact orderly_ok _
  split
  · exact orderly_ok _
  split
  · exact orderly_readCustom text
  · next noList =>
      have made := legible.resolve_left noList
      have trimmed : Text.trim text = text := made.trim (by decide)
      have upper : Text.upper text = text := made.upper (by decide)
      apply orderly_readSided
      rw [trimmed, upper]
      exact made.holds (fun c digit _ => Text.isDecimal_of_isPlainDigit digit) (by decide)

end Die

/-! ### Modifiers -/

namespace Node

variable {α : Type}

theorem orderly_raise (node : Node α) {fault : Fault} (named : fault.kind.isNamed = true)
    {β : Type} :
    Orderly (.error (node.raise fault) : Except Fault β) := by
  unfold raise
  split
  · exact orderly_raised named
  · exact orderly_tooLong

theorem orderly_arithmetic? (slot : α) (operator : Text) (value : Int) (inner : Node α) :
    Orderly (arithmetic? slot operator value inner) := by
  unfold arithmetic?
  split
  · exact orderly_named rfl
  split
  · exact orderly_raised rfl
  split
  · exact orderly_named rfl
  · exact orderly_ok _

theorem orderly_selection? (slot : α) (operator : Text) (threshold : Int) (inner : Node α) :
    Orderly (selection? slot operator threshold inner) := by
  unfold selection?
  split
  · exact orderly_named rfl
  split
  · dsimp only
    split
    · exact orderly_raised rfl
    split
    · exact orderly_ok _
    · exact orderly_raised rfl
  · exact inner.orderly_raise rfl

theorem isNamed_of_explosionFault? {rule : Explosion} {spelling : Text}
    {bounds : List (Int × Int)} {fault : Fault}
    (found : explosionFault? rule spelling bounds = some fault) : fault.kind.isNamed = true := by
  unfold explosionFault? at found
  split at found
  · cases found
    rfl
  split at found
  · cases found
    rfl
  split at found
  · cases found
    rfl
  · contradiction

theorem orderly_explosion? (heard : α → Bool) (slot : α) (comparison : Text)
    (threshold limit : Int) {inner : Node α} (checked : ∀ sub ∈ inner.subtrees, sub.Checked)
    (position : Nat) :
    Orderly ((explosion? (.memory heard) slot comparison threshold limit inner).remembered
      position).result := by
  have leaves : ∀ leaf ∈ inner.leaves, ∀ sub ∈ leaf.subtrees, sub.Checked :=
    fun leaf mem sub subMem => checked sub (subtrees_subset (inner.leaves_subset mem) subMem)
  have bounds : Orderly (inner.leaves.mapM reportedRange) := by
    intro fault refused
    obtain rfl := mapM_reportedRange_eq_error leaves refused
    exact .inr rfl
  cases known : Comparison.ofText? comparison with
  | none =>
      rw [explosion?, known]
      exact orderly_named rfl
  | some sign =>
      rw [result_explosion? heard slot known]
      split
      · exact orderly_raised rfl
      split
      · exact orderly_named rfl
      · refine bounds.bind fun bounds _ => ?_
        split
        · next fault found => exact inner.orderly_raise (isNamed_of_explosionFault? found)
        · exact orderly_ok _

end Node

namespace Workshop

open Node Reading

variable (shop : Workshop)

/-- A modifier on a tree of checked nodes is orderly. -/
theorem orderly_modify {node : Node Unit} (checked : ∀ sub ∈ node.subtrees, sub.Checked)
    (modifier : Modifier) : Orderly (shop.modify node modifier).result := by
  obtain ⟨kind, operator, value⟩ := modifier
  cases kind with
  | arithmetic => exact orderly_arithmetic? () operator value node
  | dropKeep => exact orderly_selection? () operator value node
  | explode => exact orderly_explosion? _ _ _ _ _ checked 0

theorem orderly_modifyAll {modifiers : List Modifier} :
    ∀ {node : Node Unit}, node.Assembled shop.limit →
      (∀ modifier ∈ modifiers, 0 ≤ modifier.value) →
        Orderly (shop.modifyAll node modifiers).result := by
  induction modifiers with
  | nil => exact fun _ _ => orderly_ok _
  | cons modifier rest ih =>
      intro node built natural
      refine Orderly.andThen (shop.orderly_modify built.checked modifier) fun modified made => ?_
      exact ih (shop.assembled_of_modify built (natural modifier (by simp)) made)
        fun later mem => natural later (by simp [mem])

/-! ### Texts -/

/-- With this face for dice that are written without one, the type of dice is always a list of
faces or made of characters of which none is hard to convert. -/
def Legible (defaultFace : Text) : Prop :=
  ∀ face : Option Face,
    Die.Legible ('D' :: (face.map fun face => Text.upper face.text).getD defaultFace)

theorem legible_of_madeOf {defaultFace : Text}
    (made : Text.MadeOf ['D', 'F', '%', '-'] defaultFace) :
    Legible defaultFace := by
  intro face
  rcases face with _ | digits | letter | _ | list
  · exact .inr (.cons (by simp) made)
  · have same : Text.upper digits.text = digits.text :=
      Text.upper_of_all_isPlainDigit digits.all
    have made : Text.MadeOf ['D', 'F', '%', '-'] digits.text := fun c mem => .inl (digits.all c mem)
    exact .inr (.cons (by simp) (by simpa [Face.text, same] using made))
  · have same : Text.upper [letter.char] = ['F'] :=
      letter.holds (P := fun c => Text.upper [c] = ['F']) (by decide)
    have made : Text.MadeOf ['D', 'F', '%', '-'] ['F'] := .cons (by simp) .nil
    exact .inr (.cons (by simp) (by simpa [Face.text, same] using made))
  · exact .inr (.cons (by simp) (.cons (by simp) .nil))
  · left
    simp [Face.text, Text.upper, Text.upperChar]

/-- A number of sides is legible, also one below zero. Where it cannot be written, no face stands
in its place. -/
theorem legible_write? (sides : Int) : Legible ((Numeral.write? sides).getD []) := by
  refine legible_of_madeOf ?_
  unfold Numeral.write?
  split
  · exact Numeral.madeOf_ofInt (by simp) sides
  · exact .nil

theorem orderly_checkQuantity (quantity : Int) : Orderly (checkQuantity quantity) := by
  unfold checkQuantity
  split
  · exact orderly_raised rfl
  · exact orderly_ok _

/-- Dice with any face that can be read from an expression, or without one, are dice or are
refused in order. -/
def ReadsFaces (defaultFace : Text) : Prop :=
  ∀ face : Option Face,
    Orderly (Die.read ('D' :: (face.map fun face => Text.upper face.text).getD defaultFace))

theorem Legible.readsFaces {defaultFace : Text} (legible : Legible defaultFace) :
    ReadsFaces defaultFace :=
  fun face => Die.orderly_read (legible face)

theorem orderly_dice {type : Text} (quantity : Int) (reads : Orderly (Die.read type)) :
    Orderly (dice type quantity).result :=
  .andThen reads fun _ _ => .andThen (orderly_checkQuantity quantity) fun _ _ => orderly_ok _

theorem orderly_cons {term : Term} {rest : List Term} (first : Orderly (shop.term term).result)
    (others : Orderly (shop.terms rest).result) : Orderly (shop.terms (term :: rest)).result :=
  .andThen first fun _ _ => .andThen others fun _ _ => orderly_ok _

mutual

/-- The building of a part is orderly. -/
theorem orderly_term (reads : ReadsFaces shop.face) :
    ∀ part : Part, Orderly (shop.term (part.term shop.face)).result
  | .dice quantity letter face modifiers => by
      refine .andThen (orderly_dice (number 1 quantity) (reads face)) fun pool made => ?_
      refine .andThen (shop.orderly_modifyAll (shop.assembled_of_dice made)
        fun _ => zero_le_of_mem_list) fun modified _ => ?_
      exact orderly_ok _
  | .group first rest modifiers => by
      have inside := shop.orderly_cons (orderly_term reads first) (orderly_terms reads rest)
      refine .andThen inside fun nodes termed => ?_
      refine .andThen (shop.orderly_modifyAll (shop.assembled_gather_of_terms termed).1
        fun _ => zero_le_of_mem_list) fun modified _ => ?_
      exact orderly_ok _

theorem orderly_terms (reads : ReadsFaces shop.face) :
    ∀ parts : List Part, Orderly (shop.terms (Part.terms shop.face parts)).result
  | [] => orderly_ok _
  | part :: rest => shop.orderly_cons (orderly_term reads part) (orderly_terms reads rest)

end

theorem orderly_finish (node : Node Unit) : Orderly (finish node) := by
  unfold finish
  split
  · exact orderly_ok _
  · exact orderly_tooLong

/-- A text is built, or refused with a fault that is to be expected, unless one of its numbers
cannot be converted. -/
theorem expected_of_build (reads : ReadsFaces shop.face) {s : Text} {fault : Fault}
    (refused : (shop.build s).result = .error fault) :
    fault.Expected ∨ fault = .unconvertedNumber ∧
      ∃ reading : Reading, reading.Spells (Text.trim s) ∧ ¬reading.Converts shop.defaultFace := by
  cases parsed : Expression.parse shop.defaultFace s with
  | error other =>
      obtain rfl : other = fault :=
        Except.error.inj ((build_of_parse_error parsed).symm.trans refused)
      rcases parse_eq_error parsed with ⟨rest, rfl, -⟩ | rfl | spelled
      · exact .inl (.inl rfl)
      · exact .inl (.inl rfl)
      · exact .inr spelled
  | ok expression =>
      have assembled : Orderly (shop.assemble expression).result := by
        rcases parse_sound parsed with ⟨-, rfl⟩ | ⟨reading, -, -, rfl⟩
        · exact orderly_ok _
        · exact .andThen (shop.orderly_terms reads (reading.first :: reading.rest))
            fun _ _ => orderly_ok _
      have built : Orderly (shop.build s).result := by
        rw [build, Assembly.result_bind, Assembly.result_ofExcept, parsed]
        exact assembled.andThen fun node _ => orderly_finish node
      exact .inl (built fault refused)

/-- With a decorated digit for a face the conversion of the face fails. -/
example : (build ⟨some ['\u00B2'], 100, false⟩ ['d']).result =
    .error (.decoratedDigit ['D', '\u00B2']) := by
  rfl

/-- Apart from the length of numbers, only the four named kinds of fault come up, and only while a
text is built: whatever the text, the number of sides of the dice that have none of their own and
the limit of explosions are.  There are two faults more.  Of a text that is an expression a number
can be too long to be converted, and anywhere later a number can be too long to be read or
written.  Once there is a node it has a text, and it answers all questions, one by one or in a row,
on every stream and from any position on, but for one reason: an answer is missing exactly if the
line of a step on the way to it has a number that is too long. -/
theorem named_or_replying_of_build (sides limit : Int) (followed : Bool) (s : Text) :
    let shop : Workshop := ⟨Numeral.write? sides, limit, followed⟩
    (∀ fault, (shop.build s).result = .error fault →
      fault.kind.isNamed = true ∨ fault = .numberTooLong ∨ fault = .unconvertedNumber ∧
        ∃ reading : Reading, reading.Spells (Text.trim s) ∧ ¬reading.Converts shop.defaultFace) ∧
    ∀ node, (shop.build s).result = .ok node →
      node.spelling? = some node.spelling ∧
      ∀ heard draws,
        (∀ measure position,
          let reckoned := node.reckon draws measure position
          (node.reply heard draws measure position).result =
            if reckoned.isWritten then .ok reckoned.value else .error .numberTooLong) ∧
        ∀ measures position, ∀ result ∈ (node.replyAll heard draws measures position).results,
          (∃ value, result = .ok value) ∨ result = .error .numberTooLong := by
  intro shop
  refine ⟨fun fault refused => ?_, fun node built => ?_⟩
  · rcases shop.expected_of_build (legible_write? sides).readsFaces refused with
      (named | tooLong) | spelled
    · exact .inl named
    · exact .inr (.inl tooLong)
    · exact .inr (.inr spelled)
  · obtain ⟨-, -, -, writable⟩ := shop.build_eq_ok.mp built
    have checked := shop.checked_of_build built
    refine ⟨if_pos writable, fun heard draws =>
      ⟨fun measure position => result_reply_eq heard draws checked measure position, ?_⟩⟩
    intro measures
    induction measures with
    | nil => nofun
    | cons measure rest ih =>
        intro position result mem
        rcases List.mem_cons.mp mem with rfl | mem
        · rw [result_reply_eq heard draws checked measure position]
          split
          · exact .inl ⟨_, rfl⟩
          · exact .inr rfl
        · exact ih _ result mem

/-- The greatest value of `d6^9999` has too many digits to stand in a line, so `d6^9999+1` is built
and reports no greatest value. -/
theorem long_power_is_built_and_not_reported :
    let shop : Workshop := ⟨some ['6'], 100, false⟩
    ∃ node, (shop.build ['d', '6', '^', '9', '9', '9', '9', '+', '1']).result = .ok node ∧
      node.reported .highest = .error .numberTooLong := by
  intro shop
  let power : Node Unit := .arithmetic () .power 9999 (.pool () [.die () (.sided 6)])
  have built : (shop.build ['d', '6', '^', '9', '9', '9', '9', '+', '1']).result
      = .ok (.arithmetic () .add 1 power) := shop.build_eq_ok.mpr ⟨_, rfl, rfl, by decide⟩
  have odd : Operation.isMonotone .power 9999 = true := rfl
  have monotone : Operation.isMonotone .add 1 = true := rfl
  have extreme : power.extreme .highest = Operation.power.apply 6 9999 := by
    rw [extreme_arithmetic, if_pos odd, extreme_pool, List.map_singleton, List.sum_singleton,
      extreme_die]
    rfl
  refine ⟨_, built, ?_⟩
  rw [reported_eq (shop.checked_of_build built), isReported_arithmetic, if_pos monotone, extreme,
    Operation.power_six_not_isWritable, Bool.and_false, Bool.false_and, if_neg Bool.false_ne_true]

end Workshop

end DicePool
