/-
Module: DicePool.Proofs.Budgeting
Purpose: What is counted at the end of a written node is what is read there.
Main exports: Node.Spends, Node.spent, Node.spends_iff, Reading.Modifiers.spent,
  Workshop.Yields.exists_part_spending, Workshop.Retold.one_part_or_several, Node.ReadAsCounted,
  Workshop.read_as_counted_of_build
-/
import DicePool.Proofs.Canonical
import DicePool.Proofs.Composing
import DicePool.Proofs.RoundTrip

/-!
A term has room for one selection or explosion and for two operations behind it.  When a node is
written, what its end has spent of this room is counted along the tree: a pool of one ends like
its item, and a modifier adds to what is spent before it, unless parentheses begin anew
(`Node.Spends`).  When the text is read, nothing is left of the tree, and the room is what the
grammar leaves behind one pool.

Both count the same.  The text of a modified node is always one part, whose modifiers are as
many and of the same sorts as were counted, and a text with several parts is that of a pool:
`Workshop.Retold.one_part_or_several`.
-/

namespace DicePool

/-! ### The count of the writer -/

namespace Node

variable {α : Type}

/-- What the end of the node's text has spent: whether there is a selection or an explosion, and
the number of operations behind it. -/
def spent (node : Node α) : Bool × Nat :=
  (node.written.algorithm, node.written.operations)

/-- Whether the node is an operation on another. -/
def isArithmetic : Node α → Bool
  | arithmetic _ _ _ _ => true
  | _ => false

/-- What a modifier adds to what is spent before it: an operation, or a selection or an
explosion. -/
def adding (node : Node α) (before : Bool × Nat) : Bool × Nat :=
  if node.isArithmetic then (before.1, before.2 + 1) else (true, before.2)

/-- What the end of the node's text has spent, counted along the tree. -/
inductive Spends : Node α → Bool × Nat → Prop where
  /-- A pool of one ends like its item. -/
  | one (slot : α) {item : Node α} {spent : Bool × Nat} (ends : Spends item spent) :
      Spends (pool slot [item]) spent
  /-- Dice and all other pools have spent nothing. -/
  | nothing {node : Node α} (notModified : node.inner? = none)
      (notOne : ∀ slot item, node ≠ pool slot [item]) :
      Spends node (false, 0)
  /-- Behind parentheses nothing is spent. -/
  | anew {node inner : Node α} (modified : node.inner? = some inner) (wraps : node.wraps = true) :
      Spends node (node.adding (false, 0))
  | further {node inner : Node α} {before : Bool × Nat} (modified : node.inner? = some inner)
      (wraps : node.wraps = false) (ends : Spends inner before) :
      Spends node (node.adding before)

/-- A pool of one has spent what its item has. -/
theorem spent_pool_of_one (slot : α) (item : Node α) : (pool slot [item]).spent = item.spent := rfl

/-- Dice and all other pools have spent nothing. -/
theorem spent_of_inner?_eq_none {node : Node α} (notModified : node.inner? = none)
    (notOne : ∀ slot item, node ≠ pool slot [item]) : node.spent = (false, 0) := by
  match node, notOne with
  | die _ _, _ => rfl
  | pool _ [], _ => rfl
  | pool slot [item], notOne => exact absurd rfl (notOne slot item)
  | pool _ (_ :: _ :: _), _ => rfl

/-- A modifier adds to what the node that it is applied to has spent, or in parentheses to
nothing. -/
theorem spent_of_inner? {node inner : Node α} (modified : node.inner? = some inner) :
    node.spent = node.adding (if node.wraps then (false, 0) else inner.spent) := by
  -- Where a selection or an explosion needs no parentheses, no operation stands before it.
  have treated : ∀ (w : Written) (algorithm : Text),
      ((w.treat algorithm).algorithm, (w.treat algorithm).operations)
        = (true, (if w.wrapsForAlgorithm then (false, 0) else (w.algorithm, w.operations)).2) := by
    intro w algorithm
    cases wraps : w.wrapsForAlgorithm with
    | true => rfl
    | false =>
        simp only [Written.wrapsForAlgorithm, Bool.or_eq_false_iff,
          decide_eq_false_iff_not] at wraps
        simp [Written.treat, Nat.eq_zero_of_not_pos wraps.2]
  cases node with
  | die slot d => contradiction
  | pool slot items => contradiction
  | arithmetic slot operation value base =>
      cases modified
      cases wraps : inner.written.wrapsForOperation <;>
        simp [spent, adding, written, Written.operate, isArithmetic, Node.wraps, wraps]
  | selection slot s threshold poolSlot items =>
      cases modified
      exact treated _ _
  | explosion slot rule base =>
      cases modified
      exact treated _ _

theorem spends_of_inner? {node inner : Node α} (modified : node.inner? = some inner)
    (ends : inner.Spends inner.spent) : node.Spends node.spent := by
  rw [spent_of_inner? modified]
  cases wraps : node.wraps with
  | true => exact .anew modified wraps
  | false => exact .further modified wraps ends

theorem spends_pool (slot : α) {items : List (Node α)}
    (ends : ∀ item ∈ items, item.Spends item.spent) :
    (pool slot items).Spends (pool slot items).spent := by
  match items, ends with
  | [], _ => exact .nothing rfl nofun
  | [item], ends =>
      rw [spent_pool_of_one]
      exact .one slot (ends item (by simp))
  | first :: second :: rest, _ => exact .nothing rfl (by simp)

/-- Along the tree exactly what the end of the text has spent is counted. -/
theorem spends_iff {node : Node α} {spent : Bool × Nat} :
    node.Spends spent ↔ spent = node.spent := by
  constructor
  · intro ends
    induction ends with
    | one slot _ ih => exact ih.trans (spent_pool_of_one slot _).symm
    | nothing notModified notOne => exact (spent_of_inner?_eq_none notModified notOne).symm
    | anew modified wraps => rw [spent_of_inner? modified, wraps, if_pos rfl]
    | further modified wraps _ ih =>
        rw [spent_of_inner? modified, wraps, if_neg Bool.false_ne_true, ih]
  · rintro rfl
    induction node with
    | die slot d => exact .nothing rfl nofun
    | pool slot items ih => exact spends_pool slot ih
    | arithmetic slot operation value inner ih => exact spends_of_inner? rfl ih
    | selection slot s threshold poolSlot items ih =>
        exact spends_of_inner? rfl (spends_pool poolSlot ih)
    | explosion slot rule inner ih => exact spends_of_inner? rfl ih

end Node

/-! ### What the reader finds -/

namespace Reading

/-- What the modifiers spend of the room behind a pool. -/
def Modifiers.spent (modifiers : Modifiers) : Bool × Nat :=
  (modifiers.algorithm.isSome, modifiers.operations.length)

theorem Algorithm.kind_modifier (algorithm : Algorithm) :
    algorithm.modifier.kind = .dropKeep ∨ algorithm.modifier.kind = .explode := by
  obtain ⟨mark, threshold⟩ := algorithm
  rcases mark with (_ | sign) | letters
  · exact .inr rfl
  · exact .inr rfl
  · exact .inl rfl

/-- Selections and explosions are found where an algorithm is written. -/
theorem exists_mem_list_iff (modifiers : Modifiers) :
    (∃ modifier ∈ modifiers.list, modifier.kind = .dropKeep ∨ modifier.kind = .explode) ↔
      modifiers.algorithm.isSome = true := by
  obtain ⟨algorithm, operations, few⟩ := modifiers
  constructor
  · rintro ⟨modifier, mem, kind⟩
    rcases List.mem_append.mp mem with inAlgorithm | inOperations
    · obtain ⟨written, isAlgorithm, -⟩ := List.mem_map.mp inAlgorithm
      exact Option.isSome_of_mem (Option.mem_toList.mp isAlgorithm)
    · obtain ⟨operation, -, rfl⟩ := List.mem_map.mp inOperations
      rcases kind with kind | kind <;> cases kind
  · intro present
    obtain ⟨written, rfl⟩ := Option.isSome_iff_exists.mp present
    exact ⟨written.modifier, by simp [Modifiers.list], written.kind_modifier⟩

end Reading

/-! ### The two counts -/

namespace Node

/-- With this face for dice that have none, the text of the node is read as is counted along the
tree, if it is read as one term, and the text of a modified node is always one term. -/
structure ReadAsCounted (node : Node Unit) (face : Option Text) : Prop where
  counted : ∀ spent, node.Spends spent ↔ spent = node.spent
  algorithm : ∀ term, Expression.parse face node.spelling = .ok [term] →
    (node.spent.1 = true ↔
      ∃ modifier ∈ term.modifiers, modifier.kind = .dropKeep ∨ modifier.kind = .explode)
  operations : ∀ term, Expression.parse face node.spelling = .ok [term] →
    node.spent.2 = term.modifiers.countP fun modifier => modifier.kind = .arithmetic
  single : node.inner?.isSome = true → ∃ term, Expression.parse face node.spelling = .ok [term]

theorem readAsCounted_of_not_single {node : Node Unit} {face : Option Text}
    (notModified : node.inner? = none)
    (several : ∀ term, Expression.parse face node.spelling ≠ .ok [term]) :
    node.ReadAsCounted face where
  counted _ := spends_iff
  algorithm term parsed := absurd parsed (several term)
  operations term parsed := absurd parsed (several term)
  single modified := by
    rw [notModified] at modified
    contradiction

/-- The zero that an empty pool is written as is no expression. -/
theorem readAsCounted_empty (face : Option Text) : (pool () []).ReadAsCounted face := by
  refine readAsCounted_of_not_single rfl fun term parsed => ?_
  cases face <;> cases parsed

end Node

namespace Workshop

open Node Reading

variable {shop : Workshop}

/-- The text is that of a part which spends as much as is counted. -/
theorem Yields.exists_part_spending {w : Written} {node : Node Unit} (yields : shop.Yields w node) :
    ∃ part : Part, part.text = w.text ∧ part.Converts shop.defaultFace ∧
      part.modifiers.spent = (w.algorithm, w.operations) := by
  cases yields with
  | intro modifiers converts stemmed made =>
      refine ⟨_, stemmed.text modifiers, (stemmed.converts modifiers).mpr converts, ?_⟩
      rw [stemmed.modifiers]
      rfl

/-- The text of a node is one part, which spends what the node has spent, or that of a pool in
several parts. -/
theorem Retold.one_part_or_several {node : Node Unit} (retold : Retold shop node) :
    (∃ part : Part, part.text = node.spelling ∧ part.Converts shop.defaultFace ∧
        part.modifiers.spent = node.spent) ∨
      (node.inner? = none ∧
        ∃ first next rest, Reading.text ⟨first, next :: rest⟩ = node.spelling) := by
  cases retold with
  | die checked writable =>
      have yields : shop.Yields _ _ := yields_dice checked writable (le_refl 1) (by decide)
      exact .inl yields.exists_part_spending
  | @dice d count checked writable positive counted =>
      have yields : shop.Yields _ _ := yields_dice checked writable positive counted
      rw [← written_dice d positive] at yields
      exact .inl yields.exists_part_spending
  | sum plus means mirrors several => exact .inr ⟨rfl, several⟩
  | modified sort sameSort yields mirrors => exact .inl yields.exists_part_spending

/-- Whoever reads the text of an assembled node finds what was counted. -/
theorem readAsCounted_of_assembled (shop : Workshop) {node : Node Unit}
    (assembled : node.Assembled shop.limit)
    (writable : node.isWritable = true) : node.ReadAsCounted shop.defaultFace := by
  have trimmed : Text.trim node.spelling = node.spelling := node.trim_spelling
  rcases (retold_of_assembled assembled writable).one_part_or_several with
    ⟨part, text, converts, spends⟩ | ⟨notModified, first, next, rest, text⟩
  · have whole : Reading.text ⟨part, []⟩ = node.spelling := by
      simpa [Reading.text, Part.joined] using text
    have convertsWhole : Reading.Converts shop.defaultFace ⟨part, []⟩ := ⟨converts, trivial⟩
    have parses : Expression.parse shop.defaultFace node.spelling = .ok [part.term shop.face] :=
      parse_text convertsWhole (trimmed.trans whole.symm)
    have only : ∀ term, Expression.parse shop.defaultFace node.spelling = .ok [term] →
        term.modifiers = part.modifiers.list := by
      intro term parsed
      obtain rfl : part.term shop.face = term := by simpa using parses.symm.trans parsed
      exact part.modifiers_term shop.face
    refine ⟨fun _ => spends_iff, fun term parsed => ?_, fun term parsed => ?_, fun _ => ⟨_, parses⟩⟩
    · rw [only term parsed, exists_mem_list_iff, ← spends]
      rfl
    · rw [only term parsed, countP_arithmetic, ← spends]
      rfl
  · refine readAsCounted_of_not_single notModified fun term parsed => ?_
    -- Several parts are several terms, if their numbers can be converted at all.
    by_cases converts : Reading.Converts shop.defaultFace ⟨first, next :: rest⟩
    · have parses := parse_text converts (trimmed.trans text.symm)
      simpa [Reading.terms, Part.terms] using parses.symm.trans parsed
    · have refused := parse_text_of_not_converts converts (trimmed.trans text.symm)
      cases refused.symm.trans parsed

/-- Everywhere in the tree of a text, the text of a node that is read as one term has at its end
what is counted along the tree: a selection or an explosion if and only if there is one, and so
many operations.  The text of every modifier is read as one term. -/
theorem read_as_counted_of_build {s : Text} {node : Node Unit}
    (built : (shop.build s).result = .ok node) :
    ∀ sub ∈ node.subtrees, ∀ face, sub.ReadAsCounted face := by
  intro sub mem face
  obtain ⟨-, -, -, writable⟩ := shop.build_eq_ok.mp built
  rcases shop.assembled_and_flat_of_build built with ⟨-, rfl⟩ | ⟨-, assembled, -⟩
  · obtain rfl : sub = Node.pool () [] := by simpa [subtrees] using mem
    exact readAsCounted_empty face
  · -- A written node has no dice without a face, so that any other face will do.
    let other : Workshop := { shop with defaultFace := face }
    exact other.readAsCounted_of_assembled (assembled.of_mem_subtrees sub mem)
      (isWritable_of_mem_subtrees writable sub mem)

/-- Behind the selection in `(4dkh2*3-1)^2` there is room for two operations, and the third one
begins anew behind parentheses. -/
theorem read_as_counted_of_three_operations :
    let shop : Workshop := ⟨some ['6'], 100, false⟩
    let s := ['(', '4', 'd', 'k', 'h', '2', '*', '3', '-', '1', ')', '^', '2']
    let inner : Node Unit := .arithmetic () .subtract 1 (.arithmetic () .multiply 3
      (.selection () .keepHighest 2 () (List.replicate 4 (.die () (.sided 6)))))
    let node : Node Unit := .arithmetic () .power 2 inner
    (shop.build s).result = .ok node ∧ inner.spent = (true, 2) ∧ node.spent = (false, 1) ∧
      ∀ sub ∈ node.subtrees, ∀ face, sub.ReadAsCounted face := by
  intro shop s inner node
  have built : (shop.build s).result = .ok node :=
    shop.build_eq_ok.mpr ⟨_, rfl, rfl, by decide⟩
  exact ⟨built, rfl, rfl, read_as_counted_of_build built⟩

end Workshop

end DicePool
