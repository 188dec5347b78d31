/-
Module: DicePool.Proofs.Describing
Purpose: Which texts describe which dice, how the others are refused, and that blanks do not matter.
Main exports: Text.Margins, Text.withoutBlanks, Die.ListsFaces, Die.MarksSides, Die.writtenFaces,
  Die.reads_written_and_spelled, Die.described_or_refused
-/
import DicePool.Proofs.Refusing

/-!
Two shapes of texts describe dice, up to blanks around them and the case of their letters: the
die letter and digit marks, and the die letter and a list of integers in brackets.  The
readers decide on the shape first (`Die.MarksSides`, `Die.ListsFaces`) and on the number of
sides or faces afterwards, so each outcome of theirs is known from the shape.

A digit mark is more than a decimal digit.  A text with digit marks that are no decimal digits
has the shape of a die with sides, but no number can be made of it, and neither can it of too many
digits: such texts are the only ones that are refused with a fault that has no name
(`Die.described_or_refused`).

The text that is written for a die is one of those that describe it, and so are all that
differ from it by blanks around the whole and around the faces, as long as the numbers are short
enough to be written and read (`Die.reads_written_and_spelled`).
-/

namespace DicePool

namespace Text

/-! ### Blanks -/

/-- Blanks have no case. -/
theorem upperChar_of_isBlank {c : Char} (blank : isBlank c = true) : upperChar c = [c] := by
  obtain ⟨range, mem, within⟩ := List.any_eq_true.mp blank
  simp only [Bool.and_eq_true, decide_eq_true_eq] at within
  have seen : ∀ range ∈ blankRanges, ∀ distance < range.2 + 1 - range.1,
      upperChar (Char.ofNat (range.1 + distance)) = [Char.ofNat (range.1 + distance)] := by
    decide
  have known := seen range mem (c.toNat - range.1) (by omega)
  rwa [Nat.add_sub_cancel' within.1, Char.ofNat_toNat] at known

/-- What stands before and behind a text: blanks. -/
structure Margins where
  before : Text
  behind : Text
  blankBefore : ∀ c ∈ before, isBlank c = true
  blankBehind : ∀ c ∈ behind, isBlank c = true

/-- The text with the blanks around it. -/
def Margins.around (margins : Margins) (s : Text) : Text :=
  margins.before ++ (s ++ margins.behind)

/-- The text without any of its blanks. -/
def withoutBlanks (s : Text) : Text :=
  s.filter fun c => !isBlank c

theorem withoutBlanks_append (s t : Text) :
    withoutBlanks (s ++ t) = withoutBlanks s ++ withoutBlanks t :=
  List.filter_append s t

theorem withoutBlanks_of_all {s : Text} (noBlank : ∀ c ∈ s, isBlank c = false) :
    withoutBlanks s = s := by
  apply List.filter_eq_self.mpr
  intro c mem
  rw [noBlank c mem, Bool.not_false]

theorem withoutBlanks_eq_nil {s : Text} (blank : ∀ c ∈ s, isBlank c = true) :
    withoutBlanks s = [] := by
  apply List.filter_eq_nil_iff.mpr
  intro c mem
  rw [blank c mem]
  simp

/-- A separator that is no blank goes on separating the texts. -/
theorem withoutBlanks_join {separator : Char} (noBlank : isBlank separator = false)
    (parts : List Text) :
    withoutBlanks (join [separator] parts) = join [separator] (parts.map withoutBlanks) := by
  have same : withoutBlanks [separator] = [separator] := by
    simp [withoutBlanks, noBlank]
  induction parts with
  | nil => rfl
  | cons part rest ih =>
      cases rest with
      | nil => rfl
      | cons next rest =>
          rw [join, withoutBlanks_append, withoutBlanks_append, same, ih]
          rfl

namespace Margins

variable (margins : Margins)

theorem withoutBlanks_around (s : Text) : withoutBlanks (margins.around s) = withoutBlanks s := by
  rw [around, withoutBlanks_append, withoutBlanks_append,
    withoutBlanks_eq_nil margins.blankBefore, withoutBlanks_eq_nil margins.blankBehind,
    List.nil_append, List.append_nil]

/-- The blanks around a text are trimmed, and nothing else is. -/
theorem trim_around {s : Text} (trimmed : trim s = s) (nonempty : s ≠ []) :
    trim (margins.around s) = s := by
  obtain ⟨front, back⟩ := trimBy_eq_self_iff.mp trimmed
  have behind : ∀ c ∈ margins.behind.reverse, isBlank c = true :=
    fun c mem => margins.blankBehind c (List.mem_reverse.mp mem)
  rw [trim, trimBy, around, List.dropWhile_append_of_pos margins.blankBefore,
    (front.append nonempty).dropWhile, List.reverse_append, List.dropWhile_append_of_pos behind,
    back.dropWhile, List.reverse_reverse]

/-- What is true of blanks and of a text is true of the text with blanks around it. -/
theorem of_mem_around {P : Char → Prop} (blanks : ∀ c, isBlank c = true → P c) {s : Text}
    (each : ∀ c ∈ s, P c) : ∀ c ∈ margins.around s, P c := by
  intro c mem
  rcases List.mem_append.mp mem with before | later
  · exact blanks c (margins.blankBefore c before)
  rcases List.mem_append.mp later with inside | behind
  · exact each c inside
  · exact blanks c (margins.blankBehind c behind)

end Margins

end Text

namespace Die

open Reading

/-! ### The shapes of texts that describe dice -/

/-- Up to blanks around it and the case of its letters, the text is that of a die with these
faces. -/
def ListsFaces (text : Text) (faces : List Int) : Prop :=
  ∃ list, Text.upper (Text.trim text) = 'D' :: '[' :: (list ++ [']']) ∧
    readFaces? list = some faces

/-- Up to blanks around it and the case of its letter, the text is the die letter and these
digit marks, of which there is at least one. -/
structure MarksSides (text digits : Text) : Prop where
  shape : Text.upper (Text.trim text) = 'D' :: digits
  nonempty : digits ≠ []
  marks : ∀ c ∈ digits, Text.isDigitMark c = true

theorem readCustom_of_listsFaces {text : Text} {faces : List Int}
    (lists : ListsFaces text faces) : readCustom text = withFaces faces := by
  obtain ⟨list, shape, read⟩ := lists
  rw [readCustom, shape]
  simp [read]

theorem readCustom_of_not_listsFaces {text : Text} (unlisted : ∀ faces, ¬ListsFaces text faces) :
    readCustom text = .error (.unreadableDie text) := by
  unfold readCustom
  split
  · next rest shape =>
      split
      · next closed =>
          obtain ⟨list, rfl⟩ := List.getLast?_eq_some_iff.mp closed
          split
          · next faces read =>
              rw [List.dropLast_concat] at read
              exact absurd ⟨list, shape, read⟩ (unlisted faces)
          · rfl
      · rfl
  · rfl

/-- Digit marks are converted if they are decimal digits and not too many. -/
theorem readSided_of_marksSides {text digits : Text} (marked : MarksSides text digits) :
    readSided text =
      if digits.all Text.isDecimal then
        if digits.length ≤ Numeral.digitLimit then withSides (Numeral.natOfDecimals digits)
        else .error .numberTooLong
      else .error (.decoratedDigit text) := by
  have marks : digits.all Text.isDigitMark = true := List.all_eq_true.mpr marked.marks
  rw [readSided, marked.shape]
  by_cases short : digits.length ≤ Numeral.digitLimit <;>
    simp [marks, marked.nonempty, Numeral.convert?, short]

theorem readSided_of_not_marksSides {text : Text} (unmarked : ∀ digits, ¬MarksSides text digits) :
    readSided text = .error (.unreadableDie text) := by
  unfold readSided
  split
  · next digits shape =>
      split
      · next marked =>
          simp only [Bool.and_eq_true, Bool.not_eq_true', List.isEmpty_eq_false_iff] at marked
          exact absurd ⟨shape, marked.1, List.all_eq_true.mp marked.2⟩ (unmarked digits)
      · rfl
  · rfl

/-- A number of sides that is too small is short enough to be put into words. -/
theorem raised_tooFewSides {sides : Nat} (few : sides < 2) :
    (Fault.tooFewSides sides).raised = .tooFewSides sides := by
  have one : Numeral.isWritable 1 = true := by decide
  have writable : Numeral.isWritable sides = true :=
    Numeral.isWritable_of_natAbs_le one (by rw [Int.natAbs_natCast, Int.natAbs_one]; omega)
  rw [Fault.raised, if_pos (by simpa [Fault.numbers] using writable)]

theorem withFaces_cases (faces : List Int) :
    (2 ≤ faces.length ∧ withFaces faces = .ok (.custom faces)) ∨
      (faces.length < 2 ∧ withFaces faces = .error (.tooFewSides faces.length)) := by
  rcases Nat.lt_or_ge faces.length 2 with few | enough
  · exact .inr ⟨few, by rw [withFaces, if_pos few, raised_tooFewSides few]⟩
  · exact .inl ⟨enough, if_neg (Nat.not_lt.mpr enough)⟩

theorem withSides_cases (sides : Nat) :
    (2 ≤ sides ∧ withSides sides = .ok (.sided sides)) ∨
      (sides < 2 ∧ withSides sides = .error (.tooFewSides sides)) := by
  rcases Nat.lt_or_ge sides 2 with few | enough
  · exact .inr ⟨few, by rw [withSides, if_pos (by omega), raised_tooFewSides few]⟩
  · exact .inl ⟨enough, if_neg (by omega)⟩

/-! ### Outcomes -/

/-- What comes of a text that is read as a die with faces of its own: the die with the faces that
it lists; a fault for a text that lists none; a fault for too few of them. -/
def AnswersFaces (text : Text) : Except Fault Die → Prop
  | .ok d => ∃ faces, ListsFaces text faces ∧ 2 ≤ faces.length ∧ d = .custom faces
  | .error fault =>
      (fault = .unreadableDie text ∧ ∀ faces, ¬ListsFaces text faces) ∨
        ∃ faces, ListsFaces text faces ∧ faces.length < 2 ∧ fault = .tooFewSides faces.length

/-- What comes of a text that is read as a die with sides: the die with the number of sides that
its decimal digits make; a fault for a text without digit marks behind the die letter, a fault
for too few sides, one for too many digits, and one for marks of which not all are decimal
digits. -/
def AnswersSides (text : Text) : Except Fault Die → Prop
  | .ok d => ∃ digits, MarksSides text digits ∧ (∀ c ∈ digits, Text.isDecimal c = true) ∧
      digits.length ≤ Numeral.digitLimit ∧
      2 ≤ Numeral.natOfDecimals digits ∧ d = .sided (Numeral.natOfDecimals digits)
  | .error fault =>
      (fault = .unreadableDie text ∧ ∀ digits, ¬MarksSides text digits) ∨
        (∃ digits, MarksSides text digits ∧ (∀ c ∈ digits, Text.isDecimal c = true) ∧
          digits.length ≤ Numeral.digitLimit ∧ Numeral.natOfDecimals digits < 2 ∧
          fault = .tooFewSides (Numeral.natOfDecimals digits)) ∨
        (∃ digits, MarksSides text digits ∧ (∀ c ∈ digits, Text.isDecimal c = true) ∧
          Numeral.digitLimit < digits.length ∧ fault = .numberTooLong) ∨
        ∃ digits, MarksSides text digits ∧ (∃ c ∈ digits, Text.isDecimal c = false) ∧
          fault = .decoratedDigit text

theorem answersFaces_readCustom (text : Text) : AnswersFaces text (readCustom text) := by
  by_cases lists : ∃ faces, ListsFaces text faces
  · obtain ⟨faces, lists⟩ := lists
    rw [readCustom_of_listsFaces lists]
    rcases withFaces_cases faces with ⟨enough, made⟩ | ⟨few, refused⟩
    · rw [made]
      exact ⟨faces, lists, enough, rfl⟩
    · rw [refused]
      exact .inr ⟨faces, lists, few, rfl⟩
  · rw [not_exists] at lists
    rw [readCustom_of_not_listsFaces lists]
    exact .inl ⟨rfl, lists⟩

theorem answersSides_readSided (text : Text) : AnswersSides text (readSided text) := by
  by_cases marked : ∃ digits, MarksSides text digits
  · obtain ⟨digits, marked⟩ := marked
    rw [readSided_of_marksSides marked]
    split
    · next decimal =>
        rw [List.all_eq_true] at decimal
        split
        · next short =>
            rcases withSides_cases (Numeral.natOfDecimals digits) with
              ⟨enough, made⟩ | ⟨few, refused⟩
            · rw [made]
              exact ⟨digits, marked, decimal, short, enough, rfl⟩
            · rw [refused]
              exact .inr (.inl ⟨digits, marked, decimal, short, few, rfl⟩)
        · next long => exact .inr (.inr (.inl ⟨digits, marked, decimal, Nat.not_le.mp long, rfl⟩))
    · next decorated =>
        rw [List.all_eq_true] at decorated
        push Not at decorated
        obtain ⟨c, mem, noDecimal⟩ := decorated
        exact .inr (.inr (.inr ⟨digits, marked, ⟨c, mem, by simpa using noDecimal⟩, rfl⟩))
  · rw [not_exists] at marked
    rw [readSided_of_not_marksSides marked]
    exact .inl ⟨rfl, marked⟩

/-- What goes wrong, if anything does, is a fault of a named kind. -/
def Named {β : Type} (result : Except Fault β) : Prop :=
  ∀ fault, result = .error fault → fault.kind.isNamed = true

/-- The text has the shape of a die with sides, but its digit marks are not all decimal digits, or
they are too many. -/
def Unconvertible (text : Text) : Prop :=
  ∃ digits, MarksSides text digits ∧
    ((∃ c ∈ digits, Text.isDecimal c = false) ∨ Numeral.digitLimit < digits.length)

theorem named_readCustom (text : Text) : Named (readCustom text) := by
  intro fault failed
  have answers := answersFaces_readCustom text
  rw [failed] at answers
  rcases answers with ⟨rfl, -⟩ | ⟨faces, -, -, rfl⟩ <;> rfl

/-- Digit marks that cannot be converted are all that is refused without a name. -/
theorem named_readSided_iff (text : Text) : Named (readSided text) ↔ ¬Unconvertible text := by
  constructor
  · rintro named ⟨digits, marked, failing⟩
    have refused := readSided_of_marksSides marked
    split at refused
    · next decimal =>
        split at refused
        · next short =>
            rcases failing with ⟨c, mem, noDecimal⟩ | long
            · exact absurd (List.all_eq_true.mp decimal c mem) (by simp [noDecimal])
            · exact absurd short (Nat.not_le.mpr long)
        · exact absurd (named _ refused) Bool.false_ne_true
    · exact absurd (named _ refused) Bool.false_ne_true
  · intro convertible fault failed
    have answers := answersSides_readSided text
    rw [failed] at answers
    rcases answers with ⟨rfl, -⟩ | ⟨digits, -, -, -, -, rfl⟩ | ⟨digits, marked, -, long, -⟩ |
      ⟨digits, marked, noDecimal, -⟩
    · rfl
    · rfl
    · exact absurd ⟨digits, marked, .inr long⟩ convertible
    · exact absurd ⟨digits, marked, .inl noDecimal⟩ convertible

/-- Whatever the text, it is read as a die with faces of its own or refused with a named fault:
as unreadable if it lists no faces, as out of range if it lists fewer than two.  It is read as a
die with sides or refused in the same way, unless it has the shape of such a die and its digit
marks are too many or not all decimal digits: in these cases alone the fault has no name. -/
theorem described_or_refused (text : Text) :
    AnswersFaces text (readCustom text) ∧ Named (readCustom text) ∧
      AnswersSides text (readSided text) ∧ (Named (readSided text) ↔ ¬Unconvertible text) :=
  ⟨answersFaces_readCustom text, named_readCustom text, answersSides_readSided text,
    named_readSided_iff text⟩

/-- A superscript is a digit mark, but no number is made of it. -/
theorem superscript_is_not_named :
    ∃ fault, readSided ['D', '\u00B2'] = .error fault ∧ fault.kind = .badValue ∧
      fault.kind.isNamed = false :=
  ⟨.decoratedDigit ['D', '\u00B2'], rfl, rfl, rfl⟩

/-! ### Written dice -/

/-- Faces with commas between them, and blanks around each. -/
def spacedFaces (entries : List (Text.Margins × Int)) : Text :=
  Text.join [','] (entries.map fun entry => entry.1.around (Numeral.ofInt entry.2))

/-- Such faces in brackets, behind the die letter. -/
def writtenFaces (letter : Char) (entries : List (Text.Margins × Int)) : Text :=
  letter :: '[' :: (spacedFaces entries ++ [']'])

section

variable (letter : OneOf ['d', 'D']) (entries : List (Text.Margins × Int))

theorem trim_writtenFaces :
    Text.trim (writtenFaces letter.char entries) = writtenFaces letter.char entries := by
  have front : Text.trim [letter.char, '['] = [letter.char, '['] :=
    letter.holds (P := fun c => Text.trim [c, '['] = [c, '[']) (by decide)
  exact Text.trim_append_append front (by simp) rfl (by simp) (spacedFaces entries)

/-- Nothing in a list of faces has a case. -/
theorem upper_spacedFaces : Text.upper (spacedFaces entries) = spacedFaces entries := by
  apply Text.upper_of_all
  refine Text.of_mem_join (P := fun c => Text.upperChar c = [c])
    (List.forall_mem_singleton.mpr rfl) fun part mem => ?_
  obtain ⟨⟨margins, face⟩, -, rfl⟩ := List.mem_map.mp mem
  apply margins.of_mem_around fun c blank => Text.upperChar_of_isBlank blank
  exact (madeOf_face face).holds (fun c digit => Text.upperChar_of_isPlainDigit digit) (by decide)

theorem upper_letter_cons (s : Text) : Text.upper (letter.char :: s) = 'D' :: Text.upper s := by
  have capital : Text.upperChar letter.char = ['D'] :=
    letter.holds (P := fun c => Text.upperChar c = ['D']) (by decide)
  rw [Text.upper, List.flatMap_cons, capital]
  rfl

theorem upper_writtenFaces :
    Text.upper (writtenFaces letter.char entries) = writtenFaces 'D' entries := by
  have closed : Text.upper (spacedFaces entries ++ [']']) = spacedFaces entries ++ [']'] := by
    rw [Text.upper, List.flatMap_append, ← Text.upper, upper_spacedFaces]
    rfl
  rw [writtenFaces, upper_letter_cons, Text.upper, List.flatMap_cons, ← Text.upper, closed]
  rfl

/-- Without the blanks the faces are those of the text of a die. -/
theorem withoutBlanks_spacedFaces : Text.withoutBlanks (spacedFaces entries) =
    Text.join [','] ((entries.map Prod.snd).map Numeral.ofInt) := by
  have bare : ∀ entry : Text.Margins × Int,
      Text.withoutBlanks (entry.1.around (Numeral.ofInt entry.2)) = Numeral.ofInt entry.2 := by
    intro entry
    rw [Text.Margins.withoutBlanks_around]
    apply Text.withoutBlanks_of_all
    exact (madeOf_face entry.2).holds (fun _ digit => Text.isBlank_of_isPlainDigit digit)
      (by decide)
  rw [spacedFaces, Text.withoutBlanks_join (by decide), List.map_map, List.map_map]
  exact congrArg (Text.join [',']) (List.map_congr_left fun entry _ => bare entry)

theorem withoutBlanks_writtenFaces : Text.withoutBlanks (writtenFaces letter.char entries) =
    letter.char :: (custom (entries.map Prod.snd)).spelling.tail := by
  have marks : Text.withoutBlanks [letter.char, '['] = [letter.char, '['] :=
    letter.holds (P := fun c => Text.withoutBlanks [c, '['] = [c, '[']) (by decide)
  have apart : writtenFaces letter.char entries =
    [letter.char, '['] ++ (spacedFaces entries ++ [']']) := rfl
  rw [apart, Text.withoutBlanks_append, Text.withoutBlanks_append, marks,
    withoutBlanks_spacedFaces, spelling, List.append_assoc]
  rfl

/-- Without the blanks and in upper case, such a text is the text of a die. -/
theorem upper_withoutBlanks (outer : Text.Margins) :
    Text.upper (Text.withoutBlanks (outer.around (writtenFaces letter.char entries))) =
      (custom (entries.map Prod.snd)).spelling := by
  have same := upper_spelling (custom (entries.map Prod.snd))
  rw [outer.withoutBlanks_around, withoutBlanks_writtenFaces, upper_letter_cons]
  exact same

variable {entries}

/-- The faces are read as they are, if they are short enough: a blank is no comma, and those around
a face are trimmed. -/
theorem readFaces?_spacedFaces (nonempty : entries ≠ []) {faces : List Int} :
    readFaces? (spacedFaces entries) = some faces ↔
      (∀ entry ∈ entries, Numeral.isWritable entry.2 = true) ∧ entries.map Prod.snd = faces := by
  have apart : ∀ entry ∈ entries, ',' ∉ entry.1.around (Numeral.ofInt entry.2) := by
    rintro ⟨margins, face⟩ - mem
    have noComma : ∀ c ∈ Numeral.ofInt face, c ≠ ',' := by
      rintro c found rfl
      exact (madeOf_face face).notMem (by decide) (by decide) found
    refine margins.of_mem_around (P := (· ≠ ',')) ?_ noComma ',' mem rfl
    rintro c blank rfl
    exact absurd blank (by decide)
  rw [spacedFaces, readFaces?_join_map nonempty apart]
  apply mapM_eq_some_iff
  rintro ⟨margins, face⟩ number
  rw [margins.trim_around ((madeOf_face face).trim (by decide)) (Numeral.ofInt_ne_nil face),
    Numeral.readInt?_ofInt_eq]
  split <;> simp [*]

/-- Blanks around the text and around its faces, and the case of its letter, do not matter. -/
theorem listsFaces_around (outer : Text.Margins) (nonempty : entries ≠ []) {faces : List Int} :
    ListsFaces (outer.around (writtenFaces letter.char entries)) faces ↔
      (∀ entry ∈ entries, Numeral.isWritable entry.2 = true) ∧ entries.map Prod.snd = faces := by
  have shape : Text.upper (Text.trim (outer.around (writtenFaces letter.char entries))) =
      'D' :: '[' :: (spacedFaces entries ++ [']']) := by
    rw [outer.trim_around (trim_writtenFaces letter entries) (List.cons_ne_nil _ _),
      upper_writtenFaces, writtenFaces]
  rw [← readFaces?_spacedFaces nonempty]
  constructor
  · rintro ⟨list, same, read⟩
    rw [shape] at same
    obtain rfl := List.append_cancel_right (List.cons.inj (List.cons.inj same).2).2
    exact read
  · exact fun read => ⟨_, shape, read⟩

end

/-- Blanks around the text of a die with sides do not matter. -/
theorem readSided_of_trim_eq {s t : Text} {d : Die} (same : Text.trim t = Text.trim s)
    (read : readSided s = .ok d) : readSided t = .ok d := by
  have answers := answersSides_readSided s
  rw [read] at answers
  obtain ⟨digits, ⟨shape, nonempty, marks⟩, decimal, short, enough, rfl⟩ := answers
  have marked : MarksSides t digits := ⟨by rw [same, shape], nonempty, marks⟩
  rw [readSided_of_marksSides marked, if_pos (List.all_eq_true.mpr decimal), if_pos short]
  exact withSides_eq_ok.mpr ⟨Int.ofNat_le.mpr enough, by simp⟩

theorem readSided_around (outer : Text.Margins) {sides : Nat} (enough : 2 ≤ sides)
    (writable : (sided sides).IsWritable) :
    readSided (outer.around (sided sides).spelling) = .ok (sided sides) := by
  have trimmed := trim_spelling (sided sides)
  apply readSided_of_trim_eq _ (readSided_spelling enough writable)
  rw [outer.trim_around trimmed (by simp [spelling]), trimmed]

/-! ### Texts of dice -/

/-- The text of the die, unless a number in it is too long. -/
def spelling? (d : Die) : Option Text :=
  (Node.die () d).spelling?

theorem spelling?_eq_some {d : Die} {text : Text} :
    d.spelling? = some text ↔ d.IsWritable ∧ d.spelling = text := by
  have fits : (Node.die () d).isWritable = true ↔ d.IsWritable := Node.isWritable_die
  rw [spelling?, Node.spelling?, ← fits]
  split <;> simp [*, Node.spelling, Node.written]

theorem spelling?_eq_none {d : Die} : d.spelling? = none ↔ ¬d.IsWritable := by
  rw [Option.eq_none_iff_forall_ne_some]
  simp [spelling?_eq_some]

theorem isWritable_custom {faces : List Int} :
    (custom faces).IsWritable ↔ ∀ face ∈ faces, Numeral.isWritable face = true :=
  Iff.rfl

theorem isWritable_sided {sides : Nat} :
    (sided sides).IsWritable ↔ Numeral.isWritable sides = true := by
  simp [IsWritable, numbers]

theorem isWritable_of_readCustom {text : Text} {d : Die} (found : readCustom text = .ok d) :
    d.IsWritable := by
  obtain ⟨list, faces, read, -, rfl⟩ := readCustom_eq_ok found
  exact isWritable_of_readFaces? read

theorem isWritable_of_readSided {text : Text} {d : Die} (found : readSided text = .ok d) :
    d.IsWritable := by
  obtain ⟨digits, sides, converted, -, rfl⟩ := readSided_eq_ok found
  exact isWritable_sided.mpr (Numeral.isWritable_of_convert? converted)

/-- A die and its text agree, as far as numbers can be written and read.  A list of at least two
faces is read as the die with these faces in this order, whatever the case of the letter and the
blanks around the text and around each face are, and the text of that die is the text that was
read without its blanks and in upper case; only where a face is too long, the list is refused as
unreadable.  The text of a die with sides is read as this die, with blanks around it or without;
only where the number of sides is too long, the die has no text.  And whatever text a die was read
from, it has a text of its own, which is read as the same die. -/
theorem reads_written_and_spelled :
    (∀ (outer : Text.Margins) (letter : OneOf ['d', 'D']) (entries : List (Text.Margins × Int)),
      2 ≤ entries.length →
        let text := outer.around (writtenFaces letter.char entries)
        let d := custom (entries.map Prod.snd)
        ((∀ entry ∈ entries, Numeral.isWritable entry.2 = true) →
          readCustom text = .ok d ∧ d.spelling? = some (Text.upper (Text.withoutBlanks text)) ∧
            (letter.char = 'D' → d.spelling? = some (Text.withoutBlanks text))) ∧
        ((∃ entry ∈ entries, Numeral.isWritable entry.2 = false) →
          readCustom text = .error (.unreadableDie text) ∧ d.spelling? = none)) ∧
    (∀ (outer : Text.Margins) (sides : Nat), 2 ≤ sides →
      withSides sides = .ok (sided sides) ∧
        (Numeral.isWritable sides = true → ∃ text, (sided sides).spelling? = some text ∧
          readSided (outer.around text) = .ok (sided sides)) ∧
        (Numeral.isWritable sides = false → (sided sides).spelling? = none)) ∧
    (∀ text d, readCustom text = .ok d → (∃ faces, d = custom faces) ∧
      ∃ own, d.spelling? = some own ∧ readCustom own = .ok d) ∧
    (∀ text d, readSided text = .ok d → (∃ sides, d = sided sides) ∧
      ∃ own, d.spelling? = some own ∧ readSided own = .ok d) := by
  refine ⟨?_, ?_, ?_, ?_⟩
  · intro outer letter entries enough text d
    have nonempty : entries ≠ [] := by
      rintro rfl
      simp at enough
    have upper : Text.upper (Text.withoutBlanks text) = d.spelling :=
      upper_withoutBlanks letter entries outer
    refine ⟨fun short => ?_, ?_⟩
    · have writable : d.IsWritable := isWritable_custom.mpr (List.forall_mem_map.mpr short)
      refine ⟨?_, spelling?_eq_some.mpr ⟨writable, upper.symm⟩, fun capital => ?_⟩
      · rw [readCustom_of_listsFaces ((listsFaces_around letter outer nonempty).mpr ⟨short, rfl⟩)]
        exact withFaces_eq_ok.mpr ⟨by simpa using enough, rfl⟩
      · refine spelling?_eq_some.mpr ⟨writable, ?_⟩
        rw [outer.withoutBlanks_around, withoutBlanks_writtenFaces, capital]
        rfl
    · rintro ⟨entry, mem, long⟩
      constructor
      · refine readCustom_of_not_listsFaces fun faces lists => ?_
        have short := ((listsFaces_around letter outer nonempty).mp lists).1 entry mem
        exact Bool.false_ne_true (long.symm.trans short)
      · refine spelling?_eq_none.mpr fun writable => ?_
        have short := isWritable_custom.mp writable entry.2 (List.mem_map_of_mem mem)
        exact Bool.false_ne_true (long.symm.trans short)
  · intro outer sides enough
    refine ⟨withSides_eq_ok.mpr ⟨Int.ofNat_le.mpr enough, by simp⟩, fun short => ?_, fun long => ?_⟩
    · have writable := isWritable_sided.mpr short
      exact ⟨_, spelling?_eq_some.mpr ⟨writable, rfl⟩, readSided_around outer enough writable⟩
    · refine spelling?_eq_none.mpr fun writable => ?_
      exact Bool.false_ne_true (long.symm.trans (isWritable_sided.mp writable))
  · intro text d read
    have writable := isWritable_of_readCustom read
    have answers := answersFaces_readCustom text
    rw [read] at answers
    obtain ⟨faces, -, enough, rfl⟩ := answers
    exact ⟨⟨faces, rfl⟩, _, spelling?_eq_some.mpr ⟨writable, rfl⟩,
      readCustom_spelling enough writable⟩
  · intro text d read
    have writable := isWritable_of_readSided read
    have answers := answersSides_readSided text
    rw [read] at answers
    obtain ⟨digits, -, -, -, enough, rfl⟩ := answers
    exact ⟨⟨_, rfl⟩, _, spelling?_eq_some.mpr ⟨writable, rfl⟩, readSided_spelling enough writable⟩

/-- A small letter, blanks of several sorts and a negative face of two digits; a die with twenty
sides on a line of its own; digits of another script. -/
theorem reads_spaced_faces_and_sides :
    2 ≤ [-12, 3].length ∧ (∀ face ∈ [-12, 3], Numeral.isWritable face = true) ∧
    readCustom [' ', 'd', '[', '\u00A0', '-', '1', '2', ',', '3', '\t', ']', '\u001C'] =
      .ok (custom [-12, 3]) ∧
    (custom [-12, 3]).spelling? = some ['D', '[', '-', '1', '2', ',', '3', ']'] ∧
    2 ≤ 20 ∧ Numeral.isWritable 20 = true ∧
    readSided ['\u3000', 'D', '2', '0', '\n'] = .ok (sided 20) ∧
    readSided ['d', '\u0667'] = .ok (sided 7) ∧
    (∃ own, (sided 7).spelling? = some own ∧ readSided own = .ok (sided 7)) ∧
    readCustom ['d', '[', '+', '1', ',', '0', '_', '2', ']'] = .ok (custom [1, 2]) ∧
    ∃ own, (custom [1, 2]).spelling? = some own ∧ readCustom own = .ok (custom [1, 2]) := by
  obtain ⟨faces, sides, again, againToo⟩ := reads_written_and_spelled
  have nothing : ∀ c ∈ ([] : Text), Text.isBlank c = true := List.forall_mem_nil _
  have one : ∀ c, Text.isBlank c = true → ∀ b ∈ [c], Text.isBlank b = true :=
    fun c blank => List.forall_mem_singleton.mpr blank
  obtain ⟨read, same, -⟩ := (faces ⟨[' '], ['\u001C'], one _ rfl, one _ rfl⟩ ⟨'d', by simp⟩
    [(⟨['\u00A0'], [], one _ rfl, nothing⟩, -12), (⟨[], ['\t'], nothing, one _ rfl⟩, 3)]
    (Nat.le_refl 2)).1 (by simp; decide)
  obtain ⟨-, readSides, -⟩ := sides ⟨['\u3000'], ['\n'], one _ rfl, one _ rfl⟩ 20 (by decide)
  obtain ⟨text, spelled, twenty⟩ := readSides (by decide)
  obtain rfl : ['D', '2', '0'] = text := (spelling?_eq_some.mp spelled).2
  have seven : readSided ['d', '\u0667'] = .ok (sided 7) := rfl
  have signed : readCustom ['d', '[', '+', '1', ',', '0', '_', '2', ']'] =
      .ok (custom [1, 2]) := rfl
  exact ⟨by decide, by decide, read, same, by decide, by decide, twenty, seven,
    (againToo _ _ seven).2, signed, (again _ _ signed).2⟩

/-- The face `10 ^ 4300` has one digit more than can be read, so a list of it and another face is
refused as unreadable. -/
theorem long_face_is_refused :
    let face : Nat := 10 ^ Numeral.digitLimit
    let text := 'D' :: '[' :: (Numeral.ofNat face ++ [',', '2', ']'])
    withFaces [(face : Int), 2] = .ok (custom [(face : Int), 2]) ∧
      readCustom text = .error (.unreadableDie text) := by
  -- Nothing else matters of the face, and the power is never worked out.
  have refused : ∀ face : Nat, 10 ^ Numeral.digitLimit ≤ face →
      let text := 'D' :: '[' :: (Numeral.ofNat face ++ [',', '2', ']'])
      readCustom text = .error (.unreadableDie text) := by
    intro face long text
    let bare : Text.Margins := ⟨[], [], List.forall_mem_nil _, List.forall_mem_nil _⟩
    let letter : OneOf ['d', 'D'] := ⟨'D', by simp⟩
    have written :
        text = bare.around (writtenFaces letter.char [(bare, (face : Int)), (bare, 2)]) := by
      have two : Numeral.ofInt 2 = ['2'] := rfl
      have own : Numeral.ofInt (face : Int) = Numeral.ofNat face := rfl
      simp [text, bare, letter, Text.Margins.around, writtenFaces, spacedFaces, Text.join, two, own]
    rw [written]
    refine readCustom_of_not_listsFaces fun faces lists => ?_
    have short := ((listsFaces_around letter bare (by simp)).mp lists).1 (bare, (face : Int))
      (by simp)
    have unwritable := Numeral.isWritable_eq_false_iff.mpr (show _ ≤ (face : Int).natAbs from long)
    exact Bool.false_ne_true (unwritable.symm.trans short)
  exact ⟨withFaces_eq_ok.mpr ⟨Nat.le_refl 2, rfl⟩, refused _ (Nat.le_refl _)⟩

end Die

end DicePool
