/-
Module: DicePool.Proofs.Naming
Purpose: The operators that the modifiers of an expression name, and those that can be built.
Main exports: Modifier.isSupported, Modifier.unknown, Term.everyModifier,
  Workshop.modify_eq_unknown_iff, Reading.exists_modifiers_of_mem, Reading.NamesOperator,
  Reading.names_supported_operators
-/
import DicePool.Proofs.Assembling

/-!
An expression names the operators of its modifiers, and whoever builds a modifier looks its
name up.  The two agree: the signs of arithmetic and of comparisons are the same on both
sides, and the letters of a selection are put into upper case before they are looked up.

There is one letter for which this is not enough.  The Kelvin sign is accepted as a capital of
`k`, but it is in upper case already and stays itself, so a selection that is written with it
has a name of its own, which is refused by every node.
-/

namespace DicePool

/-- Whether the operator is one of those of its kind. -/
def Modifier.isSupported (modifier : Modifier) : Bool :=
  match modifier.kind with
  | .arithmetic => (Operation.ofText? modifier.operator).isSome
  | .dropKeep => (Selection.ofText? modifier.operator).isSome
  | .explode => (Comparison.ofText? modifier.operator).isSome

/-- The fault by which a modifier is refused for its operator. -/
def Modifier.unknown (modifier : Modifier) : Fault :=
  match modifier.kind with
  | .arithmetic => .unknownOperator modifier.operator
  | .dropKeep => .unknownSelection modifier.operator
  | .explode => .unknownComparison modifier.operator

namespace Term

mutual

/-- The modifiers of a term and of all terms in its parentheses. -/
def everyModifier : Term → List Modifier
  | dice _ _ modifiers => modifiers
  | group terms modifiers => everyModifierEach terms ++ modifiers

/-- The modifiers of all these terms. -/
def everyModifierEach : List Term → List Modifier
  | [] => []
  | term :: rest => everyModifier term ++ everyModifierEach rest

end

end Term

/-! ### Looking a name up -/

/-- A fault that is put into words stays what it is, unless a number in it is too long. -/
theorem Fault.raised_ne {fault other : Fault} (ne : fault ≠ other)
    (short : other ≠ .numberTooLong) :
    fault.raised ≠ other := by
  unfold Fault.raised
  split
  · exact ne
  · exact short.symm

/-- The evaluation never ends with this fault. -/
def Spares {σ β : Type} (fault : Fault) (evaluation : Evaluation σ β) : Prop :=
  ∀ standing, (evaluation.run standing).1 ≠ .error fault

namespace Spares

variable {σ α β γ : Type} {fault : Fault}

theorem answer {result : Except Fault β} (ne : result ≠ .error fault) :
    Spares fault (Evaluation.answer result : Evaluation σ β) :=
  fun _ => ne

theorem pure (value : β) : Spares fault (Pure.pure value : Evaluation σ β) :=
  fun _ => nofun

theorem bind {evaluation : Evaluation σ β} {later : β → Evaluation σ γ}
    (first : Spares fault evaluation) (second : ∀ value, Spares fault (later value)) :
    Spares fault (evaluation >>= later) := by
  intro standing
  have spared := first standing
  rcases ran : evaluation.run standing with ⟨result, next⟩
  rw [ran] at spared
  cases result with
  | error other =>
      rw [Evaluation.run_bind_of_error ran]
      exact fun same => spared (congrArg Except.error (Except.error.inj same))
  | ok value =>
      rw [Evaluation.run_bind_of_ok ran]
      exact second value next

/-- Whoever remembers steps refuses none, so only the length of a number ends a step. -/
theorem tell (heard : α → Bool) (node : Node α) (measure : Measure) (line : Line) (result : Int)
    (short : fault ≠ .numberTooLong) :
    Spares fault (Evaluation.tell (.memory heard) node measure line result) := by
  intro standing
  cases writable : line.isWritable with
  | false =>
      rw [Evaluation.run_tell_of_not writable]
      exact fun same => short (Except.error.inj same).symm
  | true =>
      rw [Evaluation.run_tell writable]
      simp [Listener.memory]

theorem each {evaluations : List (Evaluation σ β)}
    (all : ∀ evaluation ∈ evaluations, Spares fault evaluation) :
    Spares fault (Evaluation.each evaluations) := by
  induction evaluations with
  | nil => exact .pure []
  | cons first rest ih =>
      exact (all first (by simp)).bind fun value =>
        (ih fun evaluation mem => all evaluation (by simp [mem])).bind fun others =>
          .pure (value :: others)

end Spares

namespace Node

/-- No bound is ever refused for an operator. -/
theorem spares_askBound {α : Type} (heard : α → Bool) (comparison : Text) (node : Node α)
    (side : Extreme) :
    Spares (.unknownComparison comparison) (node.askBound (.memory heard) side) := by
  have told : ∀ (node : Node α) (measure : Measure) (line : Line) (result : Int),
      Spares (.unknownComparison comparison)
        (Evaluation.tell (.memory heard) node measure line result) :=
    fun node measure line result => Spares.tell heard node measure line result (by simp)
  have calculated : ∀ (operation : Operation) (lhs : Int) (value : Nat),
      operation.calculate lhs value ≠ .error (.unknownComparison comparison) := by
    intro operation lhs value
    unfold Operation.calculate
    split <;> simp
  have every : ∀ {items : List (Node α)} {side : Extreme},
      (∀ item ∈ items,
        Spares (.unknownComparison comparison) (item.askBound (.memory heard) side)) →
      Spares (.unknownComparison comparison) (askBoundEach (.memory heard) items side) := by
    intro items side all
    rw [askBoundEach_eq]
    refine Spares.each fun evaluation mem => ?_
    obtain ⟨item, itemMem, rfl⟩ := List.mem_map.mp mem
    exact all item itemMem
  induction node generalizing side with
  | die slot d =>
      have shown : d.reported side ≠ .error (.unknownComparison comparison) := by
        unfold Die.reported
        split <;> simp
      exact (Spares.answer shown).bind fun _ => told _ _ _ _
  | pool slot items ih => exact (every fun item mem => ih item mem side).bind fun _ => told _ _ _ _
  | arithmetic slot operation value inner ih =>
      rw [askBound]
      split
      · exact (ih side).bind fun _ => (Spares.answer (calculated _ _ _)).bind fun _ => told _ _ _ _
      · exact (ih .lowest).bind fun _ => (ih .highest).bind fun _ =>
          (Spares.answer (calculated _ _ _)).bind fun _ => told _ _ _ _
  | selection slot s threshold poolSlot items ih =>
      exact (every fun item mem => ih item mem side).bind fun _ => told _ _ _ _
  | explosion slot rule inner ih =>
      cases side with
      | lowest => exact (ih .lowest).bind fun _ => told _ _ _ _
      | highest => exact told _ _ _ _

variable {α : Type} (slot : α) (inner : Node α)

theorem raise_ne {fault other : Fault} (ne : fault ≠ other) (short : other ≠ .numberTooLong) :
    inner.raise fault ≠ other := by
  unfold Node.raise
  split
  · exact Fault.raised_ne ne short
  · exact short.symm

theorem arithmetic?_eq_unknown_iff (operator : Text) (value : Int) :
    arithmetic? slot operator value inner = .error (.unknownOperator operator) ↔
      (Operation.ofText? operator).isSome = false := by
  unfold arithmetic?
  cases known : Operation.ofText? operator with
  | none => simp
  | some operation =>
      have other : ∀ {fault : Fault}, fault ≠ .unknownOperator operator →
          fault.raised ≠ .unknownOperator operator := fun ne => Fault.raised_ne ne (by simp)
      dsimp only
      split
      · simpa using other (by simp)
      split <;> simp

theorem selection?_eq_unknown_iff {operator : Text} (capital : Text.upper operator = operator)
    (threshold : Int) :
    selection? slot operator threshold inner = .error (.unknownSelection operator) ↔
      (Selection.ofText? operator).isSome = false := by
  unfold selection?
  rw [capital]
  cases known : Selection.ofText? operator with
  | none => simp
  | some s =>
      have other : ∀ {fault : Fault}, fault ≠ .unknownSelection operator →
          fault.raised ≠ .unknownSelection operator := fun ne => Fault.raised_ne ne (by simp)
      have quoted : ∀ {fault : Fault}, fault ≠ .unknownSelection operator →
          inner.raise fault ≠ .unknownSelection operator := fun ne => inner.raise_ne ne (by simp)
      dsimp only
      split
      · split
        · simpa using other (by simp)
        split
        · simp
        · simpa using other (by simp)
      · simpa using quoted (by simp)

theorem explosionFault?_ne_unknown {rule : Explosion} {spelling : Text}
    {bounds : List (Int × Int)} (comparison : Text) :
    explosionFault? rule spelling bounds ≠ some (.unknownComparison comparison) := by
  unfold explosionFault?
  dsimp only
  split
  · simp
  split
  · simp
  split <;> simp

theorem explosion?_eq_unknown_iff (heard : α → Bool) (comparison : Text) (threshold limit : Int)
    (position : Nat) :
    ((explosion? (.memory heard) slot comparison threshold limit inner).remembered position).result
        = .error (.unknownComparison comparison) ↔
      (Comparison.ofText? comparison).isSome = false := by
  unfold explosion?
  cases known : Comparison.ofText? comparison with
  | none => simp [Evaluation.remembered, Evaluation.answer]
  | some sign =>
      simp only [Option.isSome_some, Bool.true_eq_false, iff_false]
      have spares : Spares (.unknownComparison comparison)
          (explosion? (.memory heard) slot comparison threshold limit inner) := by
        unfold explosion?
        simp only [known]
        split
        · exact .answer (by simpa using Fault.raised_ne (by simp) (by simp))
        split
        · exact .answer (by simp)
        refine (Spares.each fun evaluation mem => ?_).bind fun bounds => ?_
        · obtain ⟨leaf, -, rfl⟩ := List.mem_map.mp mem
          exact (spares_askBound heard comparison leaf .lowest).bind fun _ =>
            (spares_askBound heard comparison leaf .highest).bind fun _ => .pure _
        split
        · next fault found =>
            have other : fault ≠ .unknownComparison comparison := by
              rintro rfl
              exact explosionFault?_ne_unknown comparison found
            exact .answer (by simpa using inner.raise_ne other (by simp))
        · exact .pure _
      have never := spares ⟨position, #[]⟩
      unfold explosion? at never
      simp only [known] at never
      exact never

end Node

/-- A modifier is refused for its operator by no node if the operator is supported, and by every
node if it is not. -/
theorem Workshop.modify_eq_unknown_iff (shop : Workshop) (node : Node Unit) {modifier : Modifier}
    (capital : Text.upper modifier.operator = modifier.operator) :
    (shop.modify node modifier).result = .error modifier.unknown ↔
      modifier.isSupported = false := by
  obtain ⟨kind, operator, value⟩ := modifier
  cases kind with
  | arithmetic => exact Node.arithmetic?_eq_unknown_iff () node operator value
  | dropKeep => exact Node.selection?_eq_unknown_iff () node capital value
  | explode => exact Node.explosion?_eq_unknown_iff () node _ operator value shop.limit 0

namespace Reading

/-! ### The modifiers of a reading -/

mutual

/-- A modifier of a part is one of those that are written somewhere in it. -/
theorem exists_modifiers_of_mem (defaultFace : Text) :
    ∀ part : Part, ∀ modifier ∈ (part.term defaultFace).everyModifier,
      ∃ modifiers : Modifiers, modifier ∈ modifiers.list ∧ modifiers.text <:+: part.text
  | .dice quantity letter face modifiers, modifier, mem =>
      ⟨modifiers, mem, (List.suffix_append _ _).isInfix⟩
  | .group first rest modifiers, modifier, mem => by
      rw [Part.term, Term.everyModifier, Term.everyModifierEach, List.append_assoc] at mem
      rcases List.mem_append.mp mem with inFirst | later
      · obtain ⟨inner, mem, inText⟩ := exists_modifiers_of_mem defaultFace first modifier inFirst
        refine ⟨inner, mem, inText.trans ⟨['('], Part.joined rest ++ ')' :: modifiers.text, ?_⟩⟩
        simp [Part.text]
      rcases List.mem_append.mp later with inRest | own
      · obtain ⟨inner, mem, inText⟩ :=
          exists_modifiers_of_mem_joined defaultFace rest modifier inRest
        refine ⟨inner, mem, inText.trans ⟨'(' :: first.text, ')' :: modifiers.text, ?_⟩⟩
        simp [Part.text]
      · refine ⟨modifiers, own, '(' :: first.text ++ Part.joined rest ++ [')'], [], ?_⟩
        simp [Part.text]

/-- The same for further parts. -/
theorem exists_modifiers_of_mem_joined (defaultFace : Text) :
    ∀ parts : List Part, ∀ modifier ∈ Term.everyModifierEach (Part.terms defaultFace parts),
      ∃ modifiers : Modifiers, modifier ∈ modifiers.list ∧ modifiers.text <:+: Part.joined parts
  | [], modifier, mem => by contradiction
  | part :: rest, modifier, mem => by
      rw [Part.terms, Term.everyModifierEach] at mem
      rcases List.mem_append.mp mem with own | later
      · obtain ⟨inner, mem, inText⟩ := exists_modifiers_of_mem defaultFace part modifier own
        refine ⟨inner, mem, inText.trans ⟨['+'], Part.joined rest, ?_⟩⟩
        simp [Part.joined]
      · obtain ⟨inner, mem, inText⟩ :=
          exists_modifiers_of_mem_joined defaultFace rest modifier later
        exact ⟨inner, mem, inText.trans (List.suffix_append _ _).isInfix⟩

end

/-! ### The operators of modifiers -/

/-- The names of selections that are written with the Kelvin sign. -/
def kelvinNames : List Text :=
  [['\u212A', 'H'], ['\u212A', 'L']]

/-- The modifier is a selection that is written with the Kelvin sign. -/
def IsKelvinSelection (modifier : Modifier) : Prop :=
  modifier.kind = .dropKeep ∧ modifier.operator ∈ kelvinNames

instance (modifier : Modifier) : Decidable (IsKelvinSelection modifier) :=
  inferInstanceAs (Decidable (_ ∧ _))

/-- What is known of a modifier that is written in a text: its operator is in upper case, and is
supported unless the Kelvin sign stands in the text for the letter of a selection. -/
structure NamesOperator (s : Text) (modifier : Modifier) : Prop where
  capital : Text.upper modifier.operator = modifier.operator
  unsupported : modifier.isSupported = false ↔ IsKelvinSelection modifier
  kelvin : modifier.isSupported = false → '\u212A' ∈ s

theorem NamesOperator.mono {s t : Text} {modifier : Modifier} (names : NamesOperator s modifier)
    (inText : s <:+: t) : NamesOperator t modifier :=
  ⟨names.capital, names.unsupported, fun unsupported => inText.subset (names.kelvin unsupported)⟩

/-- A supported operator in upper case, of something else than a selection with the Kelvin sign. -/
theorem namesOperator_of_isSupported (s : Text) {modifier : Modifier}
    (capital : Text.upper modifier.operator = modifier.operator)
    (supported : modifier.isSupported = true) (other : ¬IsKelvinSelection modifier) :
    NamesOperator s modifier where
  capital := capital
  unsupported := by simp [supported, other]
  kelvin := by simp [supported]

theorem namesOperator_explosion (comparison : Option (OneOf ['<', '>', '=']))
    (threshold : Option Digits) (s : Text) :
    NamesOperator s (Algorithm.mk (.explode comparison) threshold).modifier := by
  have other : ∀ operator value, ¬IsKelvinSelection ⟨.explode, operator, value⟩ := by
    rintro operator value ⟨kind, -⟩
    contradiction
  cases comparison with
  | none => exact namesOperator_of_isSupported s rfl rfl (other _ _)
  | some sign =>
      have known : Text.upper [sign.char] = [sign.char] ∧
          (Comparison.ofText? [sign.char]).isSome = true :=
        sign.holds (P := fun c => Text.upper [c] = [c] ∧ (Comparison.ofText? [c]).isSome = true)
          (by decide)
      exact namesOperator_of_isSupported s known.1 known.2 (other _ _)

/-- Two letters of a selection have together what all pairs of such letters are seen to have. -/
theorem SelectionMark.holds (letters : SelectionMark) {P : Char → Char → Prop}
    [∀ action rank, Decidable (P action rank)]
    (all : ['d', 'D', 'k', 'K', '\u212A'].all (fun action =>
      ['h', 'H', 'l', 'L'].all fun rank => decide (P action rank)) = true) :
    P letters.action.char letters.rank.char :=
  letters.rank.holds (List.all_eq_true.mp all letters.action.char letters.action.mem)

/-- The capitals of the letters of a selection are its name. The Kelvin sign is its own capital. -/
theorem namesOperator_selection (letters : SelectionMark) (threshold : Option Digits) :
    NamesOperator (Mark.select letters).text
      (Algorithm.mk (.select letters) threshold).modifier := by
  obtain ⟨capital, unsupported, kelvin⟩ := letters.holds
    (P := fun action rank =>
      Text.upper (Text.upper [action, rank]) = Text.upper [action, rank] ∧
      ((Selection.ofText? (Text.upper [action, rank])).isSome = false ↔
        Text.upper [action, rank] ∈ kelvinNames) ∧
      ((Selection.ofText? (Text.upper [action, rank])).isSome = false → action = '\u212A'))
    (by decide)
  refine ⟨capital, unsupported.trans ⟨fun mem => ⟨rfl, mem⟩, And.right⟩, fun unsupported => ?_⟩
  rw [Mark.text, kelvin unsupported]
  exact List.mem_cons_self

theorem namesOperator_operation (operation : Reading.Operation) (s : Text) :
    NamesOperator s operation.modifier := by
  have known : Text.upper [operation.sign.char] = [operation.sign.char] ∧
      (DicePool.Operation.ofText? [operation.sign.char]).isSome = true :=
    operation.sign.holds
      (P := fun c => Text.upper [c] = [c] ∧ (DicePool.Operation.ofText? [c]).isSome = true)
      (by decide)
  refine namesOperator_of_isSupported s known.1 known.2 ?_
  rintro ⟨kind, -⟩
  contradiction

/-- Whatever stands among modifiers names its operator in their text. -/
theorem namesOperator_of_mem {modifiers : Modifiers} {modifier : Modifier}
    (mem : modifier ∈ modifiers.list) : NamesOperator modifiers.text modifier := by
  obtain ⟨algorithm, operations, few⟩ := modifiers
  rcases List.mem_append.mp mem with inAlgorithm | inOperations
  · obtain ⟨found, same, rfl⟩ := List.mem_map.mp inAlgorithm
    obtain rfl : algorithm = some found := by simpa using same
    obtain ⟨mark, threshold⟩ := found
    cases mark with
    | explode comparison => exact namesOperator_explosion comparison threshold _
    | select letters =>
        apply (namesOperator_selection letters threshold).mono
        refine ⟨[], written Run.text threshold ++ operationsText operations, ?_⟩
        simp [Modifiers.text, Algorithm.text, written]
  · obtain ⟨operation, -, rfl⟩ := List.mem_map.mp inOperations
    exact namesOperator_operation operation _

/-- The modifiers of an expression, at any depth. -/
theorem exists_modifiers_of_mem_terms {defaultFace : Text} {reading : Reading}
    {modifier : Modifier} (mem : modifier ∈ Term.everyModifierEach (reading.terms defaultFace)) :
    ∃ modifiers : Modifiers, modifier ∈ modifiers.list ∧ modifiers.text <:+: '+' :: reading.text :=
  exists_modifiers_of_mem_joined defaultFace (reading.first :: reading.rest) modifier mem

/-- Expressions and nodes share their operators.  Every modifier of a text that is read, at any
depth, has a value that is not negative, and its operator is refused by every node or by none:
by every node if it is a selection that is written with the Kelvin sign, and otherwise by none.
Where there is no Kelvin sign in the text, all operators are supported. -/
theorem names_supported_operators (defaultFace : Option Text) {s : Text} {terms : List Term}
    (parsed : Expression.parse defaultFace s = .ok terms) :
    (∀ modifier ∈ Term.everyModifierEach terms,
      0 ≤ modifier.value ∧ (modifier.isSupported = false ↔ IsKelvinSelection modifier) ∧
      ∀ (shop : Workshop) (node : Node Unit),
        (shop.modify node modifier).result = .error modifier.unknown ↔
          modifier.isSupported = false) ∧
    ('\u212A' ∉ Text.trim s →
      ∀ modifier ∈ Term.everyModifierEach terms, modifier.isSupported = true) := by
  rcases parse_sound parsed with ⟨-, rfl⟩ | ⟨reading, spells, -, rfl⟩
  · constructor
    · intro modifier mem
      contradiction
    · intro _ modifier mem
      contradiction
  · constructor
    · intro modifier mem
      obtain ⟨modifiers, inList, -⟩ := exists_modifiers_of_mem_terms mem
      have names := namesOperator_of_mem inList
      exact ⟨zero_le_of_mem_list inList, names.unsupported,
        fun shop node => shop.modify_eq_unknown_iff node names.capital⟩
    · intro plain modifier mem
      obtain ⟨modifiers, inList, inText⟩ := exists_modifiers_of_mem_terms mem
      rw [← spells.1] at plain
      rw [← Bool.not_eq_false]
      intro unsupported
      rcases List.mem_cons.mp (((namesOperator_of_mem inList).mono inText).kelvin unsupported) with
        plus | inReading
      · contradiction
      · exact plain inReading

/-- A selection in letters of either case and a power, in a group that explodes. -/
theorem names_supported_operators_in_group :
    Expression.parse (some ['6'])
      ['(', '3', 'd', 'K', 'l', '2', '+', 'd', '^', '2', ')', '!', '>', '5'] =
      .ok [.group [.dice ['D', '6'] 3 [⟨.dropKeep, ['K', 'L'], 2⟩],
        .dice ['D', '6'] 1 [⟨.arithmetic, ['^'], 2⟩]] [⟨.explode, ['>'], 5⟩]] ∧
    '\u212A' ∉ Text.trim
      ['(', '3', 'd', 'K', 'l', '2', '+', 'd', '^', '2', ')', '!', '>', '5'] ∧
    ∀ modifier ∈ ([⟨.dropKeep, ['K', 'L'], 2⟩, ⟨.arithmetic, ['^'], 2⟩, ⟨.explode, ['>'], 5⟩] :
      List Modifier), modifier.isSupported = true := by
  have parsed : Expression.parse (some ['6'])
      ['(', '3', 'd', 'K', 'l', '2', '+', 'd', '^', '2', ')', '!', '>', '5'] =
        .ok [.group [.dice ['D', '6'] 3 [⟨.dropKeep, ['K', 'L'], 2⟩],
          .dice ['D', '6'] 1 [⟨.arithmetic, ['^'], 2⟩]] [⟨.explode, ['>'], 5⟩]] := rfl
  exact ⟨parsed, by decide, (names_supported_operators (some ['6']) parsed).2 (by decide)⟩

/-- A selection that is written with the Kelvin sign is read, and its operator does not exist. -/
theorem kelvin_selection_is_not_supported :
    Expression.parse (some ['6']) ['2', 'd', '6', '\u212A', 'h', '1'] =
      .ok [.dice ['D', '6'] 2 [⟨.dropKeep, ['\u212A', 'H'], 1⟩]] ∧
    (⟨.dropKeep, ['\u212A', 'H'], 1⟩ : Modifier) ∈
      Term.everyModifierEach [.dice ['D', '6'] 2 [⟨.dropKeep, ['\u212A', 'H'], 1⟩]] ∧
    (⟨.dropKeep, ['\u212A', 'H'], 1⟩ : Modifier).isSupported = false :=
  ⟨rfl, List.mem_cons_self, rfl⟩

end Reading

end DicePool
