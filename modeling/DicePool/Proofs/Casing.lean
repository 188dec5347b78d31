/-
Module: DicePool.Proofs.Casing
Purpose: The case of the letters `A` to `Z` does not matter to what a text says.
Main exports: Text.lower, Text.IgnoresCase, Text.eq_toLower, Expression.readPhrases_lower, Agrees,
  Expression.agrees_parse_lower, Workshop.agrees_of_lower_eq
-/
import DicePool.Assembly
import DicePool.Proofs.Lexing

/-!
Two texts differ only in the case of the letters `A` to `Z` if they are the same in small
letters: `Text.lower`.  Case is met in many places, in the die letter, the letters of faces
and selections, the look-ahead of operations and the lists of faces, and each place has its
own way to be rid of it.  What they have in common is that they look at classes of characters
to which a letter belongs together with its capital (`Text.IgnoresCase`), and that whatever they
keep of a letter they keep in upper case.

So every step of the reader commutes with writing the text in small letters: it finds the same
piece and leaves the rest in small letters, and where it stops the blame is the same up to the
case of what it quotes.
-/

namespace DicePool

namespace Text

/-- The letters `A` to `Z`. -/
def capitals : List Char :=
  (List.range 26).map fun distance => Char.ofNat (65 + distance)

/-- The text with the small letter for each of the letters `A` to `Z`. -/
def lower (s : Text) : Text :=
  s.map Char.toLower

@[simp] theorem lower_cons (c : Char) (s : Text) : lower (c :: s) = c.toLower :: lower s := rfl

@[simp] theorem lower_append (s t : Text) : lower (s ++ t) = lower s ++ lower t :=
  List.map_append

/-- No other character is changed. -/
theorem toLower_of_notMem_capitals {c : Char} (other : c ∉ capitals) : c.toLower = c := by
  have outside : ¬('A'.val ≤ c.val ∧ c.val ≤ 'Z'.val) := by
    rintro ⟨least, greatest⟩
    have atLeast : 65 ≤ c.toNat := UInt32.le_iff_toNat_le.mp least
    have atMost : c.toNat ≤ 90 := UInt32.le_iff_toNat_le.mp greatest
    apply other
    refine List.mem_map.mpr ⟨c.toNat - 65, List.mem_range.mpr (by omega), ?_⟩
    rw [Nat.add_sub_cancel' atLeast, Char.ofNat_toNat]
  exact dif_neg outside

/-- The function gives the same for a capital as for its small letter. -/
def IgnoresCase {β : Type} (f : Char → β) : Prop :=
  ∀ c ∈ capitals, f c.toLower = f c

/-- The capitals are tried one by one. -/
instance {β : Type} (f : Char → β) [∀ c, Decidable (f c.toLower = f c)] :
    Decidable (IgnoresCase f) :=
  List.decidableBAll (fun c => f c.toLower = f c) capitals

theorem eq_toLower {β : Type} {f : Char → β} (ignores : IgnoresCase f) (c : Char) :
    f c.toLower = f c := by
  by_cases capital : c ∈ capitals
  · exact ignores c capital
  · rw [toLower_of_notMem_capitals capital]

/-- No capital is in the class. -/
def LacksCapitals (p : Char → Bool) : Prop :=
  ∀ c ∈ capitals, p c = false

instance (p : Char → Bool) : Decidable (LacksCapitals p) :=
  List.decidableBAll (fun c => p c = false) capitals

/-- The characters of a class without capitals have no case. -/
theorem toLower_of_not {p : Char → Bool} (lacks : LacksCapitals p) {c : Char}
    (holds : p c = true) : c.toLower = c := by
  apply toLower_of_notMem_capitals
  intro capital
  rw [lacks c capital] at holds
  contradiction

theorem lower_of_all {p : Char → Bool} (lacks : LacksCapitals p) {s : Text}
    (all : ∀ c ∈ s, p c = true) : lower s = s := by
  rw [lower, List.map_congr_left fun c mem => toLower_of_not lacks (all c mem), List.map_id']

/-- In upper case the small letters are gone again. -/
theorem upper_lower (s : Text) : upper (lower s) = upper s := by
  rw [upper, lower, List.flatMap_map, funext (eq_toLower (f := upperChar) (by decide)), upper]

section

-- `p` is a class to which a letter belongs together with its capital.
variable {p : Char → Bool} (ignores : IgnoresCase p) (s : Text)

include ignores

theorem takeWhile_lower : (lower s).takeWhile p = lower (s.takeWhile p) := by
  rw [lower, List.takeWhile_map, show p ∘ Char.toLower = p from funext (eq_toLower ignores), lower]

theorem dropWhile_lower : (lower s).dropWhile p = lower (s.dropWhile p) := by
  rw [lower, List.dropWhile_map, show p ∘ Char.toLower = p from funext (eq_toLower ignores), lower]

theorem trimBy_lower : trimBy p (lower s) = lower (trimBy p s) := by
  have reverse : ∀ t : Text, (lower t).reverse = lower t.reverse := fun t => List.map_reverse.symm
  rw [trimBy, trimBy, dropWhile_lower ignores, reverse, dropWhile_lower ignores, reverse]

end

theorem trim_lower (s : Text) : trim (lower s) = lower (trim s) :=
  trimBy_lower (by decide) s

end Text

/-! ### Pieces -/

namespace Lexeme

open Text

/-- The same piece, and the rest in small letters. -/
def lowerRest {β : Type} : β × Text → β × Text :=
  Prod.map id lower

@[simp] theorem lowerRest_fst {β : Type} (piece : β × Text) : (lowerRest piece).1 = piece.1 := rfl

@[simp] theorem lowerRest_snd {β : Type} (piece : β × Text) :
    (lowerRest piece).2 = lower piece.2 := rfl

theorem digits?_lower (s : Text) : digits? (lower s) = (digits? s).map lowerRest := by
  have same : lower (s.takeWhile isPlainDigit) = s.takeWhile isPlainDigit :=
    lower_of_all (by decide) fun c mem => List.mem_takeWhile_imp mem
  simp only [digits?, takeWhile_lower (p := isPlainDigit) (by decide),
    dropWhile_lower (p := isPlainDigit) (by decide), same]
  split <;> rfl

theorem number_lower (s : Text) : number (lower s) = lowerRest (number s) := by
  simp only [number, digits?_lower]
  cases digits? s <;> rfl

theorem face?_eq_digits? {c : Char} (other : c ∉ ['%', 'f', 'F', '[']) (rest : Text) :
    face? (c :: rest) = digits? (c :: rest) := by
  simp only [List.mem_cons, List.not_mem_nil, or_false, not_or] at other
  unfold face?
  split <;> simp_all

theorem face?_list (rest : Text) :
    face? ('[' :: rest) = match rest.dropWhile (· != ']') with
      | ']' :: after => some (upper ('[' :: rest.takeWhile (· != ']') ++ [']']), after)
      | _ => none := rfl

/-- A list of faces ends with the first bracket, which has no case. -/
theorem face?_list_lower (rest : Text) :
    face? (lower ('[' :: rest)) = (face? ('[' :: rest)).map lowerRest := by
  have same : upper ('[' :: lower (rest.takeWhile (· != ']')) ++ [']'])
      = upper ('[' :: rest.takeWhile (· != ']') ++ [']']) := by
    rw [← upper_lower ('[' :: rest.takeWhile (· != ']') ++ [']']), lower_append, lower_cons]
    rfl
  have closes := stops_dropWhile (· != ']') rest
  rw [lower_cons, show '['.toLower = '[' from rfl, face?_list, face?_list,
    dropWhile_lower (by decide), takeWhile_lower (by decide)]
  cases left : rest.dropWhile (· != ']') with
  | nil => rfl
  | cons d after =>
      obtain rfl : d = ']' := by simpa [left] using closes
      exact congrArg some (Prod.ext same rfl)

theorem face?_lower (s : Text) : face? (lower s) = (face? s).map lowerRest := by
  rcases s with _ | ⟨c, rest⟩
  · rfl
  by_cases begins : c ∈ ['%', 'f', 'F', '[']
  · simp only [List.mem_cons, List.not_mem_nil, or_false] at begins
    rcases begins with rfl | rfl | rfl | rfl
    · rfl
    · rfl
    · rfl
    · exact face?_list_lower rest
  · have beginsToo : c.toLower ∉ ['%', 'f', 'F', '['] := by
      rwa [eq_toLower (f := (· ∈ ['%', 'f', 'F', '['])) (by decide)]
    rw [face?_eq_digits? begins, ← digits?_lower]
    exact face?_eq_digits? beginsToo (lower rest)

theorem startsDie_lower (s : Text) : startsDie (lower s) = startsDie s := by
  cases s with
  | nil => rfl
  | cons c rest => exact eq_toLower (f := isDieLetter) (by decide) c

theorem operation?_lower (s : Text) : operation? (lower s) = (operation? s).map lowerRest := by
  rcases s with _ | ⟨sign, rest⟩
  · rfl
  show operation? (sign.toLower :: lower rest) = _
  have same : isOperationSign sign.toLower = isOperationSign sign := eq_toLower (by decide) sign
  cases isSign : isOperationSign sign with
  | false => simp [operation?, same, isSign]
  | true =>
      have noCase : sign.toLower = sign := toLower_of_not (by decide) isSign
      have run : lower (rest.takeWhile isDecimal) = rest.takeWhile isDecimal :=
        lower_of_all (by decide) fun c mem => List.mem_takeWhile_imp mem
      simp only [operation?, noCase, isSign, takeWhile_lower (p := isDecimal) (by decide),
        dropWhile_lower (p := isDecimal) (by decide), run, startsDie_lower, if_true]
      split <;> rfl

theorem explosion?_lower (s : Text) : explosion? (lower s) = (explosion? s).map lowerRest := by
  rcases s with _ | ⟨c, rest⟩
  · rfl
  by_cases begins : c = '!'
  · subst begins
    rcases rest with _ | ⟨sign, rest⟩
    · rfl
    have same : isComparisonSign sign.toLower = isComparisonSign sign := eq_toLower (by decide) sign
    show (if isComparisonSign sign.toLower then some ([sign.toLower], lower rest)
        else some (['='], sign.toLower :: lower rest))
      = Option.map lowerRest (if isComparisonSign sign then some ([sign], rest)
        else some (['='], sign :: rest))
    rw [same]
    split
    · next isSign =>
        rw [toLower_of_not (by decide) isSign]
        rfl
    · rfl
  · have beginsToo : c.toLower ≠ '!' := by
      rwa [ne_eq, eq_toLower (f := (· = '!')) (by decide)]
    simp [explosion?, begins, beginsToo]

theorem selection?_lower (s : Text) : selection? (lower s) = (selection? s).map lowerRest := by
  rcases s with _ | ⟨action, _ | ⟨rank, rest⟩⟩
  · rfl
  · rfl
  have actions : isSelectionLetter action.toLower = isSelectionLetter action :=
    eq_toLower (by decide) action
  have ranks : isRankLetter rank.toLower = isRankLetter rank := eq_toLower (by decide) rank
  have same : upper [action.toLower, rank.toLower] = upper [action, rank] :=
    upper_lower [action, rank]
  show selection? (action.toLower :: rank.toLower :: lower rest) = _
  simp only [selection?, actions, ranks, same]
  split <;> rfl

theorem algorithm?_lower (s : Text) : algorithm? (lower s) = (algorithm? s).map lowerRest := by
  simp only [algorithm?, selection?_lower]
  cases selection? s with
  | some found => simp [lowerRest, number_lower]
  | none =>
      simp only [explosion?_lower]
      cases explosion? s with
      | some found => simp [lowerRest, number_lower]
      | none => rfl

theorem operations_lower (limit : Nat) (s : Text) :
    operations limit (lower s) = lowerRest (operations limit s) := by
  induction limit generalizing s with
  | zero => rfl
  | succ limit ih =>
      simp only [operations, operation?_lower]
      cases operation? s with
      | none => rfl
      | some found => simp [lowerRest, ih]

theorem suffixes_lower (s : Text) : suffixes (lower s) = lowerRest (suffixes s) := by
  simp only [suffixes, algorithm?_lower]
  cases algorithm? s with
  | none => exact operations_lower 2 s
  | some found => simp [lowerRest, operations_lower]

theorem startsModifier_lower (s : Text) : startsModifier (lower s) = startsModifier s := by
  simp [startsModifier, algorithm?_lower, operation?_lower]

end Lexeme

/-! ### Terms -/

/-- The same blame, and what it quotes in small letters. -/
def Blame.lower : Blame → Blame
  | whole => whole
  | modifier rest => modifier rest.lower

namespace Expression

open Text Lexeme

variable {β γ : Type}

/-- The same answer, where the rest of the text is in small letters. -/
def lowered (rests : β → β) : Except Blame β → Except Blame β
  | .ok value => .ok (rests value)
  | .error blame => .error blame.lower

/-- Steps that commute with small letters one by one do so in a row. -/
theorem lowered_bind {rests : β → β} {restsToo : γ → γ} {next nextToo : β → Except Blame γ}
    (later : ∀ value, nextToo (rests value) = lowered restsToo (next value))
    (answer : Except Blame β) :
    (lowered rests answer >>= nextToo) = lowered restsToo (answer >>= next) := by
  cases answer with
  | ok value => exact later value
  | error blame => rfl

theorem blame_lower (complete : Bool) (rest : Text) :
    blame complete (lower rest) = (blame complete rest).lower := by
  simp only [blame, startsModifier_lower]
  split
  · rfl
  rcases rest with _ | ⟨c, rest⟩
  · rfl
  have opens : (c.toLower != '(') = (c != '(') := eq_toLower (f := (· != '(')) (by decide) c
  have closes : (c.toLower != ')') = (c != ')') := eq_toLower (f := (· != ')')) (by decide) c
  simp only [lower_cons, opens, closes]
  split <;> rfl

theorem readFace_lower (quantity : Option Text) (s : Text) :
    readFace quantity (lower s) = Prod.map id lowerRest (readFace quantity s) := by
  simp only [readFace, face?_lower]
  cases face? s <;> rfl

/-- Dice that are due, where no parenthesis opens a group. -/
theorem readPool_of_ne_paren (readGroup : Text → Except Blame (List Phrase × Text)) {s : Text}
    (noGroup : s.head? ≠ some '(') :
    readPool readGroup s =
      match (number s).2 with
      | c :: after =>
          if isDieLetter c then .ok (readFace (number s).1 after)
          else .error (blame false (c :: after))
      | [] => .error (blame false []) := by
  unfold readPool
  split
  · simp at noGroup
  · dsimp only
    split <;> simp_all

theorem readPool_lower {readGroup : Text → Except Blame (List Phrase × Text)}
    (inside : ∀ s, readGroup (lower s) = lowered lowerRest (readGroup s)) (s : Text) :
    readPool readGroup (lower s) = lowered (Prod.map id lowerRest) (readPool readGroup s) := by
  by_cases opens : s.head? = some '('
  · obtain ⟨rest, rfl⟩ := List.head?_eq_some_iff.mp opens
    show (readGroup (lower rest) >>= _) = _
    rw [inside]
    apply lowered_bind
    intro found
    rfl
  · have opensToo : (lower s).head? ≠ some '(' := by
      rcases s with _ | ⟨c, rest⟩
      · simp [lower]
      · simpa [eq_toLower (f := (· = '(')) (by decide)] using opens
    rw [readPool_of_ne_paren _ opens, readPool_of_ne_paren _ opensToo, number_lower]
    obtain ⟨quantity, rest⟩ := number s
    rcases rest with _ | ⟨c, after⟩
    · exact congrArg Except.error (blame_lower false [])
    have same : isDieLetter c.toLower = isDieLetter c := eq_toLower (by decide) c
    simp only [lowerRest_fst, lowerRest_snd, lower_cons, same]
    split
    · exact congrArg Except.ok (readFace_lower quantity after)
    · exact congrArg Except.error (blame_lower false (c :: after))

theorem close_lower (nested complete : Bool) (rest : Text) :
    close nested complete (lower rest) = lowered lower (close nested complete rest) := by
  have blamed : (.error (blame complete (lower rest)) : Except Blame Text)
      = lowered lower (.error (blame complete rest)) :=
    congrArg Except.error (blame_lower complete rest)
  rcases rest with _ | ⟨c, rest⟩
  · cases nested
    · rfl
    · exact blamed
  cases nested with
  | false => exact blamed
  | true =>
      by_cases closes : c = ')'
      · subst closes
        rfl
      · have closesToo : c.toLower ≠ ')' := by
          rwa [ne_eq, eq_toLower (f := (· = ')')) (by decide)]
        simpa [close, closes, closesToo] using blamed

theorem afterJoin?_lower (s : Text) : afterJoin? (lower s) = (afterJoin? s).map lower := by
  rcases s with _ | ⟨c, rest⟩
  · rfl
  by_cases joins : c = '+'
  · subst joins
    have same := operation?_lower ('+' :: rest)
    show (if (operation? (lower ('+' :: rest))).isNone then some (lower rest) else none) = _
    rw [same, Option.isNone_map, afterJoin?]
    split <;> rfl
  · have joinsToo : c.toLower ≠ '+' := by
      rwa [ne_eq, eq_toLower (f := (· = '+')) (by decide)]
    simp [afterJoin?, joins, joinsToo]

/-- In small letters the reader finds the same phrases, and stops for the same reason. -/
theorem readPhrases_lower (fuel : Nat) (nested : Bool) (s : Text) :
    readPhrases fuel nested (lower s) = lowered lowerRest (readPhrases fuel nested s) := by
  induction fuel generalizing nested s with
  | zero => rfl
  | succ fuel ih =>
      rw [readPhrases, readPool_lower (ih true)]
      apply lowered_bind
      rintro ⟨pool, complete, rest⟩
      simp only [Prod.map_apply, id_eq, lowerRest_fst, lowerRest_snd, suffixes_lower,
        afterJoin?_lower]
      cases afterJoin? (suffixes rest).2 with
      | some next =>
          simp only [Option.map_some]
          rw [ih nested next]
          apply lowered_bind
          intro found
          rfl
      | none =>
          simp only [Option.map_none]
          rw [close_lower]
          apply lowered_bind
          intro found
          rfl

end Expression

/-! ### Texts that differ in case only -/

/-- The same outcome, or two faults of one kind. -/
inductive Agrees {β : Type} : Except Fault β → Except Fault β → Prop where
  | ok (value : β) : Agrees (.ok value) (.ok value)
  | error {one two : Fault} (sameKind : one.kind = two.kind) : Agrees (.error one) (.error two)

namespace Agrees

variable {β γ : Type} {one two three : Except Fault β}

theorem refl (outcome : Except Fault β) : Agrees outcome outcome := by
  cases outcome with
  | ok value => exact .ok value
  | error fault => exact .error rfl

theorem symm (agrees : Agrees one two) : Agrees two one := by
  cases agrees with
  | ok value => exact .ok value
  | error sameKind => exact .error sameKind.symm

/-- What is done with outcomes that agree agrees as well. -/
theorem bind (agrees : Agrees one two) (next : β → Except Fault γ) :
    Agrees (one >>= next) (two >>= next) := by
  cases agrees with
  | ok value => exact .refl (next value)
  | error sameKind => exact .error sameKind

theorem trans (agrees : Agrees one two) (agreesToo : Agrees two three) : Agrees one three := by
  cases agrees with
  | ok value => exact agreesToo
  | error sameKind =>
      cases agreesToo with
      | error sameKindToo => exact .error (sameKind.trans sameKindToo)

end Agrees

/-- What is said of a text for which the reader gives this answer. -/
def Expression.verdict (defaultFace : Option Text) (s : Text) :
    Except Blame (List Phrase × Text) → Except Fault (List Term)
  | .ok (phrases, _) => convert defaultFace phrases
  | .error .whole => .error (.unreadableExpression s)
  | .error (.modifier rest) => .error (.unreadableModifier rest)

theorem Expression.parse_eq_verdict (defaultFace : Option Text) {s t : Text}
    (trimmed : Text.trim s = t) (nonempty : t ≠ []) :
    parse defaultFace s = verdict defaultFace t (readPhrases (t.length + 1) false t) := by
  subst trimmed
  unfold parse verdict
  split
  · next empty => exact absurd empty nonempty
  · rfl

/-- In small letters a text says the same, or fails in the same way. -/
theorem Expression.agrees_parse_lower (defaultFace : Option Text) (s : Text) :
    Agrees (parse defaultFace (Text.lower s)) (parse defaultFace s) := by
  cases trimmed : Text.trim s with
  | nil =>
      have trimmedToo : Text.trim (Text.lower s) = [] := by rw [Text.trim_lower, trimmed]; rfl
      rw [parse, parse, trimmed, trimmedToo]
      exact .ok []
  | cons c rest =>
      have trimmedToo : Text.trim (Text.lower s) = Text.lower (c :: rest) := by
        rw [Text.trim_lower, trimmed]
      rw [parse_eq_verdict defaultFace trimmed nofun, parse_eq_verdict defaultFace trimmedToo nofun,
        readPhrases_lower, Text.lower, List.length_map]
      cases readPhrases ((c :: rest).length + 1) false (c :: rest) with
      | ok found => exact .refl (convert defaultFace found.1)
      | error blame => cases blame <;> exact .error rfl

namespace Workshop

/-- Two texts that differ only in the case of letters say the same, or are refused by the reader
with faults of one kind.  So they are built into the same tree, which has one spelling, or are
refused with faults of one kind; and where they say something at all the whole work on them is
the same, down to the questions that are asked and to what a fault quotes. -/
theorem agrees_of_lower_eq (shop : Workshop) {s t : Text} (same : Text.lower s = Text.lower t) :
    Agrees (Expression.parse shop.defaultFace s) (Expression.parse shop.defaultFace t) ∧
      Agrees (shop.build s).result (shop.build t).result ∧
      ∀ terms, Expression.parse shop.defaultFace s = .ok terms → shop.build s = shop.build t := by
  have agrees : Agrees (Expression.parse shop.defaultFace s)
      (Expression.parse shop.defaultFace t) := by
    have first := Expression.agrees_parse_lower shop.defaultFace s
    rw [same] at first
    exact first.symm.trans (Expression.agrees_parse_lower shop.defaultFace t)
  refine ⟨agrees, ?_, ?_⟩
  · simp only [build, Assembly.result_bind, Assembly.result_ofExcept]
    exact agrees.bind _
  · intro terms read
    rw [read] at agrees
    generalize parsed : Expression.parse shop.defaultFace t = other at agrees
    cases agrees
    rw [build, build, read, parsed]

/-- Where a modifier is to blame the rest of the text is quoted in its own case. -/
example :
    Expression.parse (some ['6']) ['d', 'X'] = .error (.unreadableExpression ['d', 'X']) ∧
      Expression.parse (some ['6']) ['D', '6', 'x'] = .error (.unreadableModifier ['x']) :=
  ⟨rfl, rfl⟩

/-- Dice of three sorts in a group, with letters of both cases. -/
theorem agrees_of_mixed_letters :
    let shop : Workshop := ⟨some ['6'], 100, false⟩
    let s := ['(', '2', 'D', '[', '1', ',', '3', ']', 'K', 'l', '+', '3', 'd', 'F', ')', '*', '2']
    let t := ['(', '2', 'd', '[', '1', ',', '3', ']', 'k', 'L', '+', '3', 'D', 'f', ')', '*', '2']
    s ≠ t ∧ Text.lower s = Text.lower t ∧ (shop.build s).result.isOk = true ∧
      shop.build s = shop.build t := by
  intro shop s t
  have same : Text.lower s = Text.lower t := by decide
  refine ⟨by decide, same, rfl, ?_⟩
  exact (shop.agrees_of_lower_eq same).2.2 _ rfl

end Workshop

end DicePool
