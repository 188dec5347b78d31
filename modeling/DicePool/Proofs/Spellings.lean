/-
Module: DicePool.Proofs.Spellings
Purpose: Numbers and dice are read from their own texts, and no text has blanks around it.
Main exports: Text.MadeOf, Text.fields_join, Numeral.convert?_ofNat, Numeral.readInt?_ofInt,
  Numeral.isWritable_of_readInt?, Reading.numeral, Die.read_spelling, Die.spelling_injective,
  Die.checked_of_read, Die.exists_face_text, Node.trim_spelling, Node.isWritable_of_mem_subtrees
-/
import DicePool.Die.Reader
import DicePool.Proofs.Constructing
import DicePool.Proofs.Lexing
import DicePool.Proofs.Sharing

/-!
The text of a die consists of digits and a few marks.  None of them is a blank or has
another capital, so neither trimming nor upper case changes such a text, and a list of
faces falls apart at its commas again.

A number that can be written is read again from its numeral, and a number that was read can
be written: it has at most as many digits as there were.
-/

namespace DicePool

namespace Text

/-- What is true of the separator and of each of the texts is true of all of them together. -/
theorem of_mem_join {P : Char → Prop} {separator : Text} (marks : ∀ c ∈ separator, P c)
    {parts : List Text} (each : ∀ part ∈ parts, ∀ c ∈ part, P c) :
    ∀ c ∈ Text.join separator parts, P c := by
  intro c mem
  induction parts with
  | nil => contradiction
  | cons part rest ih =>
      cases rest with
      | nil => exact each part (by simp) c mem
      | cons next rest =>
          rw [Text.join, List.append_assoc] at mem
          rcases List.mem_append.mp mem with inPart | later
          · exact each part (by simp) c inPart
          rcases List.mem_append.mp later with inSeparator | inRest
          · exact marks c inSeparator
          · exact ih (fun part mem => each part (by simp [mem])) inRest

/-- The text consists of digits and of these characters. -/
def MadeOf (marks : List Char) (s : Text) : Prop :=
  ∀ c ∈ s, isPlainDigit c = true ∨ c ∈ marks

namespace MadeOf

variable {marks : List Char} {s t : Text}

theorem nil : MadeOf marks [] :=
  fun _ mem => absurd mem List.not_mem_nil

theorem append (first : MadeOf marks s) (second : MadeOf marks t) : MadeOf marks (s ++ t) := by
  intro c mem
  rcases List.mem_append.mp mem with mem | mem
  · exact first c mem
  · exact second c mem

theorem cons {c : Char} (mem : c ∈ marks) (rest : MadeOf marks s) : MadeOf marks (c :: s) := by
  intro d found
  rcases List.mem_cons.mp found with rfl | found
  · exact .inr mem
  · exact rest d found

theorem mono {others : List Char} (made : MadeOf marks s) (subset : marks ⊆ others) :
    MadeOf others s :=
  fun c mem => (made c mem).imp id (@subset c)

theorem join (separator : MadeOf marks s) {parts : List Text}
    (each : ∀ part ∈ parts, MadeOf marks part) : MadeOf marks (Text.join s parts) :=
  of_mem_join separator each

/-- What is true of the digits and is seen of the marks is true of the whole text. -/
theorem holds {P : Char → Prop} [DecidablePred P] (made : MadeOf marks s)
    (digits : ∀ c, isPlainDigit c = true → P c)
    (seen : marks.all (fun c => decide (P c)) = true) : ∀ c ∈ s, P c := by
  intro c mem
  rcases made c mem with digit | mark
  · exact digits c digit
  · exact of_decide_eq_true (List.all_eq_true.mp seen c mark)

/-- Only digits and the named characters stand in the text. -/
theorem notMem {c : Char} (made : MadeOf marks s) (noDigit : isPlainDigit c = false)
    (noMark : marks.contains c = false) : c ∉ s := by
  intro mem
  rcases made c mem with digit | mark
  · rw [noDigit] at digit
    contradiction
  · rw [List.contains_iff_mem.mpr mark] at noMark
    contradiction

end MadeOf

/-- No script has a digit among the blanks. -/
theorem isBlank_of_isDecimal {c : Char} (decimal : isDecimal c = true) : isBlank c = false := by
  obtain ⟨value, found⟩ := Option.isSome_iff_exists.mp decimal
  obtain ⟨start, first, -⟩ := Option.map_eq_some_iff.mp found
  have mem := List.mem_of_find?_eq_some first
  have within : start ≤ c.toNat ∧ c.toNat < start + 10 := by
    simpa using List.find?_some first
  have apart : ∀ start ∈ decimalZeros, ∀ range ∈ blankRanges,
      start + 10 ≤ range.1 ∨ range.2 < start := by decide
  rw [isBlank, inRanges, List.any_eq_false]
  intro range rangeMem
  have outside := apart start mem range rangeMem
  simp only [Bool.and_eq_true, decide_eq_true_eq]
  omega

theorem isBlank_of_isPlainDigit {c : Char} (digit : isPlainDigit c = true) :
    isBlank c = false :=
  isBlank_of_isDecimal (isDecimal_of_isPlainDigit digit)

/-- A text without characters of the class stays as it is. -/
theorem trimBy_of_all {p : Char → Bool} {s : Text} (apart : ∀ c ∈ s, p c = false) :
    trimBy p s = s := by
  have kept : ∀ t : Text, (∀ c ∈ t, p c = false) → t.dropWhile p = t := by
    intro t apart
    cases t with
    | nil => rfl
    | cons c rest => simp [apart c]
  rw [trimBy, kept s apart, kept s.reverse (by simpa using apart), List.reverse_reverse]

/-- A text stays as it is if neither end of it is of the class, and only then. -/
theorem trimBy_eq_self_iff {p : Char → Bool} {s : Text} :
    trimBy p s = s ↔ Stops p s ∧ Stops p s.reverse := by
  constructor
  · intro trimmed
    have front : s.dropWhile p = s := by
      apply (List.dropWhile_suffix p).eq_of_length_le
      have back := (List.dropWhile_suffix p (l := (s.dropWhile p).reverse)).length_le
      rw [← List.length_reverse, ← trimBy, trimmed, List.length_reverse] at back
      exact back
    have reversed : s.reverse.dropWhile p = s.reverse := by
      rw [trimBy, front] at trimmed
      exact List.reverse_eq_iff.mp trimmed
    exact ⟨front ▸ stops_dropWhile p s, reversed ▸ stops_dropWhile p s.reverse⟩
  · rintro ⟨front, back⟩
    rw [trimBy, front.dropWhile, back.dropWhile, List.reverse_reverse]

/-- Between two texts without blanks around them anything may stand. -/
theorem trim_append_append {s t : Text} (trimmed : trim s = s) (nonempty : s ≠ [])
    (trimmedToo : trim t = t) (nonemptyToo : t ≠ []) (middle : Text) :
    trim (s ++ (middle ++ t)) = s ++ (middle ++ t) := by
  have first := (trimBy_eq_self_iff.mp trimmed).1
  have last := (trimBy_eq_self_iff.mp trimmedToo).2
  refine trimBy_eq_self_iff.mpr ⟨first.append nonempty, ?_⟩
  rw [List.reverse_append, List.reverse_append, List.append_assoc]
  exact last.append (by simpa using nonemptyToo)

/-- Without blanks among its characters, a text has none around it. -/
theorem MadeOf.trim {marks : List Char} {s : Text} (made : MadeOf marks s)
    (noBlank : marks.all (fun c => decide (isBlank c = false)) = true) : Text.trim s = s := by
  apply trimBy_of_all
  apply made.holds _ noBlank
  intro c digit
  exact isBlank_of_isPlainDigit digit

/-- Without characters that have another capital, upper case changes nothing. -/
theorem MadeOf.upper {marks : List Char} {s : Text} (made : MadeOf marks s)
    (capital : marks.all (fun c => decide (upperChar c = [c])) = true) : Text.upper s = s :=
  upper_of_all (made.holds (fun _ digit => upperChar_of_isPlainDigit digit) capital)

/-- Up to the separator there is one field. -/
theorem fields_append {separator : Char} {s : Text} (apart : separator ∉ s) (rest : Text) :
    fields separator (s ++ separator :: rest) = s :: fields separator rest := by
  induction s with
  | nil => simp [fields]
  | cons c s ih =>
      have other : c ≠ separator := by
        rintro rfl
        simp at apart
      have later := ih fun mem => apart (List.mem_cons_of_mem c mem)
      simp [fields, other, later]

theorem fields_of_not_mem {separator : Char} {s : Text} (apart : separator ∉ s) :
    fields separator s = [s] := by
  induction s with
  | nil => rfl
  | cons c s ih =>
      have other : c ≠ separator := by
        rintro rfl
        simp at apart
      have later := ih fun mem => apart (List.mem_cons_of_mem c mem)
      simp [fields, other, later]

/-- Texts that are joined by a separator fall apart at it again. -/
theorem fields_join {separator : Char} {parts : List Text} (nonempty : parts ≠ [])
    (apart : ∀ s ∈ parts, separator ∉ s) : fields separator (join [separator] parts) = parts := by
  induction parts with
  | nil => exact absurd rfl nonempty
  | cons s rest ih =>
      cases rest with
      | nil => exact fields_of_not_mem (apart s (by simp))
      | cons t rest =>
          have later := ih (by simp) fun s mem => apart s (by simp [mem])
          rw [join, List.append_assoc, List.singleton_append, fields_append (apart s (by simp)),
            later]

end Text

/-! ### Numbers -/

namespace Numeral

theorem isPlainDigit_of_mem_ofNat {n : Nat} {c : Char} (mem : c ∈ ofNat n) :
    Text.isPlainDigit c = true :=
  Nat.isDigit_of_mem_toDigits (by decide) (by decide) mem

theorem isDecimal_of_mem_ofNat {n : Nat} {c : Char} (mem : c ∈ ofNat n) :
    Text.isDecimal c = true :=
  Text.isDecimal_of_isPlainDigit (isPlainDigit_of_mem_ofNat mem)

theorem ofNat_ne_nil (n : Nat) : ofNat n ≠ [] :=
  Nat.toDigits_ne_nil

theorem ofInt_ne_nil (i : Int) : ofInt i ≠ [] := by
  cases i with
  | ofNat n => exact ofNat_ne_nil n
  | negSucc n => simp [ofInt]

theorem madeOf_ofNat (marks : List Char) (n : Nat) : Text.MadeOf marks (ofNat n) :=
  fun _ mem => .inl (isPlainDigit_of_mem_ofNat mem)

theorem madeOf_ofInt {marks : List Char} (minus : '-' ∈ marks) (i : Int) :
    Text.MadeOf marks (ofInt i) := by
  cases i with
  | ofNat n => exact madeOf_ofNat marks n
  | negSucc n => exact .cons minus (madeOf_ofNat marks (n + 1))

theorem natOfDecimals_ofNat (n : Nat) : natOfDecimals (ofNat n) = n := by
  rw [natOfDecimals_eq_natOfPlain fun _ => isPlainDigit_of_mem_ofNat, natOfPlain_ofNat]

theorem ofNat_injective {n m : Nat} (same : ofNat n = ofNat m) : n = m := by
  rw [← natOfPlain_ofNat n, same, natOfPlain_ofNat]

/-- Numbers are known by their numerals. -/
theorem ofInt_injective {i j : Int} (same : ofInt i = ofInt j) : i = j := by
  have noMinus : ∀ {n : Nat} {rest : Text}, ofNat n ≠ '-' :: rest := by
    intro n rest same
    have mem : '-' ∈ ofNat n := by simp [same]
    exact absurd (isPlainDigit_of_mem_ofNat mem) (by decide)
  cases i with
  | ofNat n =>
      cases j with
      | ofNat m => rw [ofNat_injective same]
      | negSucc m => exact absurd same noMinus
  | negSucc n =>
      cases j with
      | ofNat m => exact absurd same.symm noMinus
      | negSucc m =>
          have next : n + 1 = m + 1 := ofNat_injective (List.cons.inj same).2
          rw [Nat.succ.inj next]

/-- A natural number can be written if its digits are not too many. -/
theorem isWritable_natCast {n : Nat} :
    isWritable n = true ↔ (ofNat n).length ≤ digitLimit := by
  rw [isWritable, decide_eq_true_eq, Int.natAbs_natCast]

/-- What can be written is converted from its digits. -/
theorem convert?_ofNat {n : Nat} (writable : isWritable n = true) :
    convert? (ofNat n) = some n := by
  rw [convert?, if_pos (isWritable_natCast.mp writable), natOfDecimals_ofNat]

/-- A run of decimal digits is read as its number, unless there are too many. -/
theorem readNat?_of_decimals {s : Text} (nonempty : s ≠ [])
    (decimal : ∀ c ∈ s, Text.isDecimal c = true) : readNat? s = convert? s := by
  have whole : Text.fields '_' s = [s] := by
    apply Text.fields_of_not_mem
    intro mem
    exact absurd (decimal _ mem) (by decide)
  have digits : s.all Text.isDecimal = true := List.all_eq_true.mpr decimal
  simp [readNat?, whole, nonempty, digits]

/-- A run of decimal digits is also read as its number where a sign could stand before it. -/
theorem readInt?_of_decimals {s : Text} (nonempty : s ≠ [])
    (decimal : ∀ c ∈ s, Text.isDecimal c = true) :
    readInt? s = (convert? s).map fun (n : Nat) => (n : Int) := by
  have noMargin : ∀ c ∈ s, isMargin c = false := by
    intro c mem
    simp [isMargin, Text.isBlank_of_isDecimal (decimal c mem)]
  rw [readInt?, Text.trimBy_of_all noMargin]
  have read := readNat?_of_decimals nonempty decimal
  unfold readSigned?
  split
  · exact absurd (decimal '-' (by simp)) (by decide)
  · exact absurd (decimal '+' (by simp)) (by decide)
  · rw [read]

/-- The digits of an integer are read as that integer, unless there are too many. -/
theorem readInt?_ofInt_eq (i : Int) :
    readInt? (ofInt i) = if isWritable i then some i else none := by
  have converted : ∀ n : Nat, convert? (ofNat n) = if isWritable n then some n else none := by
    intro n
    simp only [convert?, natOfDecimals_ofNat, isWritable_natCast]
  cases i with
  | ofNat n =>
      rw [ofInt, readInt?_of_decimals (ofNat_ne_nil n) fun _ => isDecimal_of_mem_ofNat, converted]
      change _ = if isWritable (n : Int) = true then some (n : Int) else none
      split <;> rfl
  | negSucc n =>
      have made : Text.MadeOf ['-'] (ofInt (.negSucc n)) := madeOf_ofInt (by simp) _
      have noMargin : ∀ c ∈ ofInt (.negSucc n), isMargin c = false := by
        refine made.holds ?_ (by decide)
        intro c digit
        simp [isMargin, Text.isBlank_of_isPlainDigit digit]
      rw [readInt?, Text.trimBy_of_all noMargin]
      simp only [ofInt, readSigned?, readNat?_of_decimals (ofNat_ne_nil (n + 1)) fun _ =>
        isDecimal_of_mem_ofNat, converted]
      change _ = if isWritable ((n + 1 : Nat) : Int) = true then some (Int.negSucc n) else none
      split <;> rfl

/-- A written integer is read as itself. -/
theorem readInt?_ofInt {i : Int} (writable : isWritable i = true) :
    readInt? (ofInt i) = some i := by
  rw [readInt?_ofInt_eq, if_pos writable]

/-! ### Numbers that were read -/

/-- Digits mean a number that has no more of them. -/
theorem ofDigitValues_lt {digits : List Nat} (small : ∀ digit ∈ digits, digit < 10) :
    ofDigitValues digits < 10 ^ digits.length := by
  have grown : ∀ (digits : List Nat) (n k : Nat), (∀ digit ∈ digits, digit < 10) → n < 10 ^ k →
      digits.foldl (fun n digit => 10 * n + digit) n < 10 ^ (k + digits.length) := by
    intro digits
    induction digits with
    | nil => exact fun n k _ below => below
    | cons digit rest ih =>
        intro n k small below
        have next := ih (10 * n + digit) (k + 1) (fun digit mem => small digit (by simp [mem])) (by
          have last := small digit (by simp)
          rw [Nat.pow_succ]
          omega)
        rw [List.length_cons, ← Nat.succ_add_eq_add_succ]
        exact next
  simpa [ofDigitValues] using grown digits 0 0 small (by simp)

theorem natOfDecimals_lt (s : Text) : natOfDecimals s < 10 ^ s.length := by
  have small : ∀ digit ∈ s.filterMap Text.decimalValue?, digit < 10 := by
    intro digit mem
    obtain ⟨c, -, found⟩ := List.mem_filterMap.mp mem
    obtain ⟨start, first, rfl⟩ := Option.map_eq_some_iff.mp found
    have within : start ≤ c.toNat ∧ c.toNat < start + 10 := by
      simpa using List.find?_some first
    omega
  exact Nat.lt_of_lt_of_le (ofDigitValues_lt small)
    (Nat.pow_le_pow_right (by decide) (List.length_filterMap_le ..))

/-- What was converted can be written. -/
theorem isWritable_of_convert? {digits : Text} {n : Nat} (converted : convert? digits = some n) :
    isWritable n = true := by
  unfold convert? at converted
  split at converted
  · next short =>
      cases converted
      rw [isWritable_iff, Int.natAbs_natCast]
      exact Nat.lt_of_lt_of_le (natOfDecimals_lt digits) (Nat.pow_le_pow_right (by decide) short)
  · contradiction

theorem isWritable_of_readNat? {s : Text} {n : Nat} (read : readNat? s = some n) :
    isWritable n = true := by
  simp only [readNat?] at read
  split at read
  · exact isWritable_of_convert? read
  · contradiction

/-- What was read can be written. -/
theorem isWritable_of_readInt? {s : Text} {i : Int} (read : readInt? s = some i) :
    isWritable i = true := by
  unfold readInt? readSigned? at read
  split at read
  · obtain ⟨n, found, rfl⟩ := Option.map_eq_some_iff.mp read
    rw [isWritable, Int.natAbs_neg]
    exact isWritable_of_readNat? found
  · obtain ⟨n, found, rfl⟩ := Option.map_eq_some_iff.mp read
    exact isWritable_of_readNat? found
  · obtain ⟨n, found, rfl⟩ := Option.map_eq_some_iff.mp read
    exact isWritable_of_readNat? found

end Numeral

/-- The digits of a number. -/
def Reading.numeral (n : Nat) : Reading.Digits :=
  ⟨Numeral.ofNat n, Numeral.ofNat_ne_nil n, fun _ => Numeral.isPlainDigit_of_mem_ofNat⟩

theorem Reading.numberConverts_numeral {n : Nat} (writable : Numeral.isWritable n = true) :
    NumberConverts (some (numeral n)) := by
  intro run mem
  obtain rfl := Option.mem_some_iff.mp mem
  exact Numeral.isWritable_natCast.mp writable

/-! ### Dice -/

namespace Die

/-- What the text of a die consists of, digits apart. -/
def marks : List Char :=
  ['D', 'F', '%', '[', ',', '-', ']']

/-- A list of faces without its brackets. -/
theorem madeOf_list {others : List Char} (comma : ',' ∈ others) (minus : '-' ∈ others)
    (faces : List Int) : Text.MadeOf others (Text.join [','] (faces.map Numeral.ofInt)) := by
  refine .join (.cons comma .nil) fun part mem => ?_
  obtain ⟨face, -, rfl⟩ := List.mem_map.mp mem
  exact Numeral.madeOf_ofInt minus face

theorem madeOf_spelling (d : Die) : Text.MadeOf marks d.spelling := by
  cases d with
  | sided sides => exact .cons (by simp [marks]) (Numeral.madeOf_ofNat marks sides)
  | percentile => exact .cons (by simp [marks]) (.cons (by simp [marks]) .nil)
  | fudge => exact .cons (by simp [marks]) (.cons (by simp [marks]) .nil)
  | custom faces =>
      have list : Text.MadeOf marks (Text.join [','] (faces.map Numeral.ofInt)) :=
        madeOf_list (by simp [marks]) (by simp [marks]) faces
      exact .cons (by simp [marks]) (.cons (by simp [marks])
        (list.append (.cons (by simp [marks]) .nil)))

theorem trim_spelling (d : Die) : Text.trim d.spelling = d.spelling :=
  d.madeOf_spelling.trim (by decide)

theorem upper_spelling (d : Die) : Text.upper d.spelling = d.spelling :=
  d.madeOf_spelling.upper (by decide)

/-- A list of texts without commas is read face by face. -/
theorem readFaces?_join_map {β : Type} {entries : List β} {text : β → Text}
    (nonempty : entries ≠ []) (apart : ∀ entry ∈ entries, ',' ∉ text entry) :
    readFaces? (Text.join [','] (entries.map text)) =
      entries.mapM fun entry => Numeral.readInt? (Text.trim (text entry)) := by
  have separate : ∀ part ∈ entries.map text, ',' ∉ part := by
    intro part mem
    obtain ⟨entry, entryMem, rfl⟩ := List.mem_map.mp mem
    exact apart entry entryMem
  rw [readFaces?, Text.fields_join (by simpa using nonempty) separate, List.mapM_map]
  rfl

/-- What a face consists of, digits apart. -/
theorem madeOf_face (face : Int) : Text.MadeOf ['-'] (Numeral.ofInt face) :=
  Numeral.madeOf_ofInt (by simp) face

/-- The faces in the text of a die are read as they are. -/
theorem readFaces?_join {faces : List Int} (nonempty : faces ≠ [])
    (writable : ∀ face ∈ faces, Numeral.isWritable face = true) :
    readFaces? (Text.join [','] (faces.map Numeral.ofInt)) = some faces := by
  have apart : ∀ face ∈ faces, ',' ∉ Numeral.ofInt face :=
    fun face _ => (madeOf_face face).notMem (by decide) (by decide)
  have reads : ∀ face number, Numeral.readInt? (Text.trim (Numeral.ofInt face)) = some number ↔
      Numeral.isWritable face = true ∧ id face = number := by
    intro face number
    rw [(madeOf_face face).trim (by decide), Numeral.readInt?_ofInt_eq]
    split <;> simp [*]
  rw [readFaces?_join_map nonempty apart, mapM_eq_some_iff reads]
  exact ⟨writable, List.map_id faces⟩

/-- Whether all numbers in the text of the die can be written. -/
def IsWritable (d : Die) : Prop :=
  ∀ n ∈ d.numbers, Numeral.isWritable n = true

theorem readSided_spelling {sides : Nat} (atLeast : 2 ≤ sides)
    (writable : (sided sides).IsWritable) :
    readSided (sided sides).spelling = .ok (sided sides) := by
  have decimal : (Numeral.ofNat sides).all Text.isDecimal = true :=
    List.all_eq_true.mpr fun c mem => Numeral.isDecimal_of_mem_ofNat mem
  have marked : (Numeral.ofNat sides).all Text.isDigitMark = true :=
    List.all_eq_true.mpr fun c mem => by
      rw [Text.isDigitMark, List.all_eq_true.mp decimal c mem, Bool.true_or]
  have nonempty : (Numeral.ofNat sides).isEmpty = false := by
    simp [Numeral.ofNat_ne_nil]
  have converted := Numeral.convert?_ofNat (writable sides (by simp [numbers]))
  rw [readSided, trim_spelling, upper_spelling, spelling]
  simp only [nonempty, decimal, marked, Bool.not_false, Bool.and_true, if_true, converted]
  exact withSides_eq_ok.mpr ⟨Int.ofNat_le.mpr atLeast, by simp⟩

theorem readCustom_spelling {faces : List Int} (atLeast : 2 ≤ faces.length)
    (writable : (custom faces).IsWritable) :
    readCustom (custom faces).spelling = .ok (custom faces) := by
  have nonempty : faces ≠ [] := by
    rintro rfl
    simp at atLeast
  rw [readCustom, trim_spelling, upper_spelling, spelling]
  simp [readFaces?_join nonempty writable, withFaces_eq_ok, atLeast]

/-- The sides of a die are not written like the other dice. -/
theorem notMem_spelling_sided {sides : Nat} {c : Char} (noDigit : Text.isPlainDigit c = false)
    (noLetter : c ≠ 'D') : c ∉ (sided sides).spelling := by
  have apart : c ∉ Numeral.ofNat sides := (Numeral.madeOf_ofNat [] sides).notMem noDigit rfl
  simp [spelling, apart, noLetter]

/-- A checked die is read from its text, if it has one. -/
theorem read_spelling {d : Die} (checked : d.Checked) (writable : d.IsWritable) :
    read d.spelling = .ok d := by
  cases d with
  | percentile => rfl
  | fudge => rfl
  | sided sides =>
      have notFudge : (sided sides).spelling ≠ ['D', 'F'] := by
        intro same
        have apart : 'F' ∉ (sided sides).spelling := notMem_spelling_sided (by decide) (by decide)
        exact apart (by simp [same])
      have notPercentile : (sided sides).spelling ≠ ['D', '%'] := by
        intro same
        have apart : '%' ∉ (sided sides).spelling := notMem_spelling_sided (by decide) (by decide)
        exact apart (by simp [same])
      have noBracket : (sided sides).spelling.contains '[' = false := by
        have apart : '[' ∉ (sided sides).spelling := notMem_spelling_sided (by decide) (by decide)
        simpa using apart
      rw [read, if_neg notFudge, if_neg notPercentile, noBracket]
      exact readSided_spelling checked writable
  | custom faces =>
      have bracket : (custom faces).spelling.contains '[' = true := by
        simp [spelling]
      have notFudge : (custom faces).spelling ≠ ['D', 'F'] := by
        simp [spelling]
      have notPercentile : (custom faces).spelling ≠ ['D', '%'] := by
        simp [spelling]
      rw [read, if_neg notFudge, if_neg notPercentile, if_pos bracket]
      exact readCustom_spelling checked writable

/-- A list of faces is known by its text. -/
theorem join_ofInt_injective {one two : List Int} (nonempty : one ≠ []) (nonemptyToo : two ≠ [])
    (same : Text.join [','] (one.map Numeral.ofInt) = Text.join [','] (two.map Numeral.ofInt)) :
    one = two := by
  have separate : ∀ faces : List Int, ∀ part ∈ faces.map Numeral.ofInt, ',' ∉ part := by
    intro faces part mem
    obtain ⟨face, -, rfl⟩ := List.mem_map.mp mem
    exact (madeOf_face face).notMem (by decide) (by decide)
  have fields := Text.fields_join (by simpa using nonempty) (separate one)
  rw [same, Text.fields_join (by simpa using nonemptyToo) (separate two)] at fields
  exact (List.map_injective_iff.mpr fun _ _ => Numeral.ofInt_injective) fields.symm

/-- Checked dice are known by their texts, written or not. -/
theorem spelling_injective {one two : Die} (checked : one.Checked) (checkedToo : two.Checked)
    (same : one.spelling = two.spelling) : one = two := by
  have apart : ∀ {sides : Nat} {d : Die} (c : Char), Text.isPlainDigit c = false → c ≠ 'D' →
      c ∈ d.spelling → (sided sides).spelling ≠ d.spelling := by
    intro sides d c noDigit noLetter mem same
    exact notMem_spelling_sided noDigit noLetter (same ▸ mem)
  have nonempty : ∀ {faces : List Int}, (custom faces).Checked → faces ≠ [] := by
    rintro faces checked rfl
    simp [Checked, size] at checked
  cases one with
  | sided sides =>
      cases two with
      | sided sides' => rw [Numeral.ofNat_injective (List.cons.inj same).2]
      | percentile => exact absurd same (apart '%' (by decide) (by decide) (by simp [spelling]))
      | fudge => exact absurd same (apart 'F' (by decide) (by decide) (by simp [spelling]))
      | custom faces => exact absurd same (apart '[' (by decide) (by decide) (by simp [spelling]))
  | percentile =>
      cases two with
      | sided sides =>
          exact absurd same.symm (apart '%' (by decide) (by decide) (by simp [spelling]))
      | percentile => rfl
      | fudge => simp [spelling] at same
      | custom faces => simp [spelling] at same
  | fudge =>
      cases two with
      | sided sides =>
          exact absurd same.symm (apart 'F' (by decide) (by decide) (by simp [spelling]))
      | percentile => simp [spelling] at same
      | fudge => rfl
      | custom faces => simp [spelling] at same
  | custom faces =>
      cases two with
      | sided sides =>
          exact absurd same.symm (apart '[' (by decide) (by decide) (by simp [spelling]))
      | percentile => simp [spelling] at same
      | fudge => simp [spelling] at same
      | custom faces' =>
          have lists : Text.join [','] (faces.map Numeral.ofInt) =
              Text.join [','] (faces'.map Numeral.ofInt) := by
            simpa [spelling] using same
          rw [join_ofInt_injective (nonempty checked) (nonempty checkedToo) lists]

/-- What is read from the text of a die with sides. -/
theorem readSided_eq_ok {text : Text} {d : Die} (found : readSided text = .ok d) :
    ∃ digits sides, Numeral.convert? digits = some sides ∧ 2 ≤ sides ∧ d = sided sides := by
  unfold readSided at found
  split at found
  · split at found
    · split at found
      · split at found
        · next sides converted =>
            obtain ⟨atLeast, rfl⟩ := withSides_eq_ok.mp found
            exact ⟨_, sides, converted, Int.ofNat_le.mp atLeast, rfl⟩
        · contradiction
      · contradiction
    · contradiction
  · contradiction

/-- What is read from the text of a die with faces of its own. -/
theorem readCustom_eq_ok {text : Text} {d : Die} (found : readCustom text = .ok d) :
    ∃ list faces, readFaces? list = some faces ∧ 2 ≤ faces.length ∧ d = custom faces := by
  unfold readCustom at found
  split at found
  · split at found
    · split at found
      · next faces read =>
          obtain ⟨atLeast, rfl⟩ := withFaces_eq_ok.mp found
          exact ⟨_, faces, read, atLeast, rfl⟩
      · contradiction
    · contradiction
  · contradiction

/-- A die that is read is one with a name of its own, or was read by its sides or faces. -/
theorem read_cases {text : Text} {d : Die} (found : read text = .ok d) :
    d = .fudge ∨ d = .percentile ∨ readCustom text = .ok d ∨ readSided text = .ok d := by
  unfold read at found
  split at found
  · cases found
    simp
  split at found
  · cases found
    simp
  split at found
  · exact .inr (.inr (.inl found))
  · exact .inr (.inr (.inr found))

theorem checked_of_readSided {text : Text} {d : Die} (found : readSided text = .ok d) :
    d.Checked := by
  obtain ⟨digits, sides, -, atLeast, rfl⟩ := readSided_eq_ok found
  exact atLeast

theorem checked_of_readCustom {text : Text} {d : Die} (found : readCustom text = .ok d) :
    d.Checked := by
  obtain ⟨list, faces, -, atLeast, rfl⟩ := readCustom_eq_ok found
  exact atLeast

/-- Dice that are read are checked. -/
theorem checked_of_read {text : Text} {d : Die} (found : read text = .ok d) : d.Checked := by
  rcases read_cases found with rfl | rfl | custom | sided
  · simp [Checked, size]
  · simp [Checked, size]
  · exact checked_of_readCustom custom
  · exact checked_of_readSided sided

/-- What comes out of a conversion of a list was converted from one of its items. -/
theorem exists_of_mem_mapM {β γ : Type} {f : β → Option γ} {items : List β} {results : List γ}
    (mapped : items.mapM f = some results) {result : γ} (mem : result ∈ results) :
    ∃ item ∈ items, f item = some result := by
  induction items generalizing results with
  | nil =>
      cases mapped
      contradiction
  | cons item rest ih =>
      simp only [List.mapM_cons, Option.bind_eq_bind, Option.bind_eq_some_iff, Option.pure_def,
        Option.some.injEq] at mapped
      obtain ⟨first, made, others, mapped, rfl⟩ := mapped
      rcases List.mem_cons.mp mem with rfl | mem
      · exact ⟨item, by simp, made⟩
      · obtain ⟨item, found, made⟩ := ih mapped mem
        exact ⟨item, by simp [found], made⟩

/-- Faces that are read can be written. -/
theorem isWritable_of_readFaces? {list : Text} {faces : List Int}
    (read : readFaces? list = some faces) : (custom faces).IsWritable := by
  intro face mem
  obtain ⟨field, -, converted⟩ := exists_of_mem_mapM read mem
  exact Numeral.isWritable_of_readInt? converted

/-- Behind the die letter, the text of a die is a face. -/
theorem exists_face_text (d : Die) :
    ∃ face : Reading.Face, d.spelling = 'D' :: face.text ∧ Text.upper face.text = face.text := by
  have capital : ∀ {s : Text}, d.spelling = 'D' :: s → Text.upper s = s := by
    intro s same
    have upper := d.upper_spelling
    rw [same, Text.upper, List.flatMap_cons] at upper
    exact (List.cons.inj upper).2
  have exists_of : ∀ face : Reading.Face, d.spelling = 'D' :: face.text →
      ∃ face : Reading.Face, d.spelling = 'D' :: face.text ∧ Text.upper face.text = face.text :=
    fun face same => ⟨face, same, capital same⟩
  cases d with
  | sided sides => exact exists_of (.sides (Reading.numeral sides)) rfl
  | percentile => exact exists_of .percent rfl
  | fudge => exact exists_of (.fudge ⟨'F', by simp⟩) rfl
  | custom faces =>
      have list : Text.MadeOf [',', '-'] (Text.join [','] (faces.map Numeral.ofInt)) :=
        madeOf_list (by simp) (by simp) faces
      have unclosed : ']' ∉ Text.join [','] (faces.map Numeral.ofInt) :=
        list.notMem (by decide) (by decide)
      exact exists_of (.custom _ unclosed) rfl

end Die

/-! ### Nodes -/

namespace Node

/-- What the text of a node consists of, digits apart. -/
def marks : List Char :=
  Die.marks ++ ['K', 'H', 'L', '+', '*', '/', '^', '!', '<', '>', '=', '(', ')']

theorem madeOf_inParentheses {wraps : Bool} {s : Text} (made : Text.MadeOf marks s) :
    Text.MadeOf marks (Written.inParentheses wraps s) := by
  unfold Written.inParentheses
  split
  · exact .cons (by simp [marks]) (made.append (.cons (by simp [marks]) .nil))
  · exact made

theorem madeOf_operate {w : Written} (made : Text.MadeOf marks w.text) (operation : Operation)
    (value : Nat) : Text.MadeOf marks (w.operate operation value).text := by
  have text : (w.operate operation value).text =
      Written.inParentheses w.wrapsForOperation w.text
        ++ operation.sign :: Numeral.ofNat value := by
    unfold Written.operate
    split <;> rfl
  rw [text]
  refine (madeOf_inParentheses made).append (.cons ?_ (Numeral.madeOf_ofNat marks value))
  cases operation <;> simp [Operation.sign, marks, Die.marks]

theorem madeOf_treat {w : Written} (made : Text.MadeOf marks w.text) {algorithm : Text}
    (madeToo : Text.MadeOf marks algorithm) : Text.MadeOf marks (w.treat algorithm).text :=
  (madeOf_inParentheses made).append madeToo

theorem madeOf_pool {items : List (Bool × Written)}
    (each : ∀ item ∈ items, Text.MadeOf marks item.2.text) :
    Text.MadeOf marks (Written.pool items).text := by
  have text : (Written.pool items).text = Written.poolText items := by
    unfold Written.pool
    split <;> rfl
  rw [text, Written.poolText]
  split
  · intro c mem
    obtain rfl := List.mem_singleton.mp mem
    exact .inl rfl
  · refine .join (.cons (by simp [marks]) .nil) fun part mem => ?_
    obtain ⟨share, shareMem, rfl⟩ := List.mem_map.mp mem
    obtain ⟨item, itemMem, same⟩ := Share.exists_of_mem_ofItems shareMem
    obtain ⟨written, writtenMem, rfl⟩ := List.mem_map.mp itemMem
    have made : Text.MadeOf marks share.text := same ▸ each written writtenMem
    unfold Share.spelling
    split
    · exact made
    · exact (Numeral.madeOf_ofNat marks share.count).append made

theorem madeOf_rule (rule : Explosion) : Text.MadeOf marks rule.spelling := by
  unfold Explosion.spelling
  split
  · exact .cons (by simp [marks]) .nil
  · refine .cons (by simp [marks]) (.cons ?_ (Numeral.madeOf_ofInt (by simp [marks, Die.marks]) _))
    cases rule.comparison <;> simp [Comparison.sign, marks]

theorem madeOf_spelling {α : Type} (node : Node α) : Text.MadeOf marks node.spelling := by
  rw [Node.spelling]
  have pooled : ∀ items : List (Node α), (∀ item ∈ items, Text.MadeOf marks item.written.text) →
      Text.MadeOf marks (Written.pool (writtenEach items)).text := by
    intro items each
    refine madeOf_pool fun item mem => ?_
    rw [writtenEach_eq_map] at mem
    obtain ⟨node, nodeMem, rfl⟩ := List.mem_map.mp mem
    exact each node nodeMem
  induction node with
  | die slot d =>
      rw [Node.written]
      exact d.madeOf_spelling.mono (List.subset_append_left _ _)
  | pool slot items ih =>
      rw [Node.written]
      exact pooled items ih
  | arithmetic slot operation value inner ih =>
      rw [Node.written]
      exact madeOf_operate ih operation value
  | selection slot s threshold poolSlot items ih =>
      rw [Node.written]
      refine madeOf_treat (pooled items ih) (.append ?_ (Numeral.madeOf_ofNat marks threshold))
      cases s <;>
        exact .cons (by simp [marks, Die.marks]) (.cons (by simp [marks]) .nil)
  | explosion slot rule inner ih =>
      rw [Node.written]
      exact madeOf_treat ih (madeOf_rule rule)

/-- There are no blanks around the text of a node. -/
theorem trim_spelling {α : Type} (node : Node α) : Text.trim node.spelling = node.spelling :=
  node.madeOf_spelling.trim (by decide)

/-! ### Numbers in the text of a node -/

section

variable {α : Type}

theorem isWritable_die {slot : α} {d : Die} :
    (die slot d).isWritable = true ↔ d.IsWritable := by
  simp [isWritable, numbers, Die.IsWritable]

theorem isWritable_pool (slot : α) (items : List (Node α)) :
    (pool slot items).isWritable =
      ((counts (writtenEach items)).all Numeral.isWritable && items.all isWritable) := by
  rw [isWritable, numbers, numbersEach_eq_flatMap, List.all_append, List.all_flatMap]
  rfl

theorem isWritable_arithmetic (slot : α) (operation : Operation) (value : Nat) (inner : Node α) :
    (arithmetic slot operation value inner).isWritable =
      (Numeral.isWritable value && inner.isWritable) := by
  simp [isWritable, numbers]

/-- A selection is written if its pool is, and its threshold. -/
theorem isWritable_selection (slot : α) (s : Selection) (threshold : Nat) (poolSlot : α)
    (items : List (Node α)) :
    (selection slot s threshold poolSlot items).isWritable =
      (Numeral.isWritable threshold && (pool poolSlot items).isWritable) := by
  simp [isWritable, numbers]

theorem isWritable_explosion (slot : α) (rule : Explosion) (inner : Node α) :
    (explosion slot rule inner).isWritable =
      (Numeral.isWritable rule.threshold && inner.isWritable) := by
  simp [isWritable, numbers]

/-- Where a tree can be written, each node of it can be. -/
theorem isWritable_of_mem_subtrees {node : Node α} (writable : node.isWritable = true) :
    ∀ sub ∈ node.subtrees, sub.isWritable = true := by
  have each : ∀ {items : List (Node α)} {slot : α},
      (∀ item ∈ items, item.isWritable = true → ∀ sub ∈ item.subtrees, sub.isWritable = true) →
      (pool slot items).isWritable = true → ∀ sub ∈ (pool slot items).inside,
        sub.isWritable = true := by
    intro items slot ih pooled sub mem
    rw [isWritable_pool, Bool.and_eq_true, List.all_eq_true (p := isWritable)] at pooled
    rw [inside_pool] at mem
    obtain ⟨item, itemMem, subMem⟩ := List.mem_flatMap.mp mem
    exact ih item itemMem (pooled.2 item itemMem) sub subMem
  induction node with
  | die slot d => simpa [subtrees] using writable
  | pool slot items ih =>
      intro sub mem
      rcases List.mem_cons.mp mem with rfl | inside
      · exact writable
      · exact each ih writable sub inside
  | arithmetic slot operation value inner ih =>
      intro sub mem
      rcases List.mem_cons.mp mem with rfl | inside
      · exact writable
      · rw [isWritable_arithmetic, Bool.and_eq_true] at writable
        exact ih writable.2 sub (by simpa using inside)
  | selection slot s threshold poolSlot items ih =>
      intro sub mem
      rcases List.mem_cons.mp mem with rfl | inside
      · exact writable
      · rw [isWritable_selection, Bool.and_eq_true] at writable
        rw [inside_selection] at inside
        rcases List.mem_cons.mp inside with rfl | inside
        · exact writable.2
        · exact each ih writable.2 sub inside
  | explosion slot rule inner ih =>
      intro sub mem
      rcases List.mem_cons.mp mem with rfl | inside
      · exact writable
      · rw [isWritable_explosion, Bool.and_eq_true] at writable
        exact ih writable.2 sub (by simpa using inside)

end

end Node

end DicePool
