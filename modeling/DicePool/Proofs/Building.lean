/-
Module: DicePool.Proofs.Building
Purpose: Which texts are built into which nodes.
Main exports: Workshop.Stem, Workshop.Yields, Workshop.Means, Workshop.Yields.operate,
  Workshop.Yields.treat, Workshop.yields_of_term, Workshop.means_of_build, Workshop.Means.build
-/
import DicePool.Proofs.Assembling

/-!
A text that is built is the text of an expression whose numbers can be converted (`Means`), and
an expression of one part is the text of a part (`Yields`).  What a modifier can do behind a
part depends on the modifiers that the part has already, so `Yields` keeps count of them, as a
written node does.

In parentheses every expression is a part without modifiers, and with enough room at its end
a part takes a further modifier: so texts are put together, and with them the nodes that
they are built into.
-/

namespace DicePool.Workshop

open Node Reading

variable (shop : Workshop)

/-! ### Parts -/

/-- The pool is what stands before the modifiers of a part, and is written like this. -/
structure Stem (stem : Modifiers → Part) (s : Text) (pool : Node Unit) : Prop where
  text : ∀ modifiers, (stem modifiers).text = s ++ modifiers.text
  modifiers : ∀ modifiers, (stem modifiers).modifiers = modifiers
  converts : ∀ modifiers : Modifiers,
    (stem modifiers).Converts shop.defaultFace ↔ modifiers.Converts
  assembled : pool.Assembled shop.limit
  result : ∀ (modifiers : Modifiers) (node : Node Unit),
    (shop.modifyAll pool modifiers.list).result = .ok node →
      (shop.term ((stem modifiers).term shop.face)).result = .ok node.flatten

/-- The text is that of a part, its end is as described, and the part is built into the
node before a pool of one is opened. -/
inductive Yields : Written → Node Unit → Prop where
  | intro {stem : Modifiers → Part} {s : Text} {pool node : Node Unit} (modifiers : Modifiers)
      (converts : modifiers.Converts) (stemmed : shop.Stem stem s pool)
      (made : (shop.modifyAll pool modifiers.list).result = .ok node) :
      Yields ⟨s ++ modifiers.text, modifiers.algorithm.isSome, modifiers.operations.length⟩ node

/-- The text is that of an expression that is built into the node. -/
def Means (s : Text) (node : Node Unit) : Prop :=
  ∃ reading : Reading, reading.text = s ∧ reading.Converts shop.defaultFace ∧
    (shop.assemble (reading.terms shop.face)).result = .ok node

variable {shop}

/-- No modifiers. -/
def bare : Modifiers :=
  ⟨none, [], by simp⟩

theorem Stem.yields {stem : Modifiers → Part} {s : Text} {pool : Node Unit}
    (stemmed : shop.Stem stem s pool) : shop.Yields ⟨s, false, 0⟩ pool := by
  have converts : bare.Converts := ⟨by simp [bare], by simp [bare]⟩
  have yields : shop.Yields ⟨s ++ bare.text, false, 0⟩ pool := .intro bare converts stemmed rfl
  simpa [bare, Modifiers.text, Reading.written, operationsText] using yields

theorem modifyAll_append (node : Node Unit) (first second : List Modifier) :
    shop.modifyAll node (first ++ second) =
      (shop.modifyAll node first >>= fun modified => shop.modifyAll modified second) := by
  induction first generalizing node with
  | nil => simp [modifyAll]
  | cons modifier rest ih =>
      rw [List.cons_append, modifyAll, modifyAll, bind_assoc]
      exact bind_congr fun modified => ih modified

/-- One modifier more. -/
theorem modifyAll_concat {node modified last : Node Unit} {modifiers : List Modifier}
    {modifier : Modifier} (made : (shop.modifyAll node modifiers).result = .ok modified)
    (then' : (shop.modify modified modifier).result = .ok last) :
    (shop.modifyAll node (modifiers ++ [modifier])).result = .ok last := by
  rw [modifyAll_append]
  apply Assembly.result_bind_ok made
  exact Assembly.result_bind_ok then' rfl

/-- With room for it, an operation goes to the end of the part. -/
theorem Yields.operate {w : Written} {node modified : Node Unit} (yields : shop.Yields w node)
    (room : w.operations < 2) (operation : Reading.Operation)
    (short : operation.digits.text.length ≤ Numeral.digitLimit)
    (made : (shop.modify node operation.modifier).result = .ok modified) :
    shop.Yields ⟨w.text ++ operation.text, w.algorithm, w.operations + 1⟩ modified := by
  cases yields with
  | intro modifiers converts stemmed all =>
      obtain ⟨algorithm, operations, few⟩ := modifiers
      have fits : (operations ++ [operation]).length ≤ 2 := by
        rw [List.length_append]
        exact room
      have more := modifyAll_concat all made
      have yields : shop.Yields _ modified :=
        .intro ⟨algorithm, operations ++ [operation], fits⟩
          ⟨converts.algorithm, fun written mem => (List.mem_append.mp mem).elim
            (converts.operations written) fun last => List.mem_singleton.mp last ▸ short⟩
          stemmed (by simpa [Modifiers.list] using more)
      simpa [Modifiers.text, operationsText] using yields

/-- Without modifiers at the end, a selection or an explosion goes there. -/
theorem Yields.treat {w : Written} {node modified : Node Unit} (yields : shop.Yields w node)
    (noAlgorithm : w.algorithm = false) (noOperation : w.operations = 0)
    (algorithm : Algorithm) (converts : NumberConverts algorithm.threshold)
    (made : (shop.modify node algorithm.modifier).result = .ok modified) :
    shop.Yields ⟨w.text ++ algorithm.text, true, 0⟩ modified := by
  cases yields with
  | intro modifiers _ stemmed all =>
      obtain ⟨before, operations, few⟩ := modifiers
      obtain rfl : before = none := by simpa using noAlgorithm
      obtain rfl : operations = [] := by simpa using noOperation
      have more := modifyAll_concat all made
      have yields : shop.Yields _ modified :=
        .intro ⟨some algorithm, [], by simp⟩
          ⟨fun last mem => Option.mem_some_iff.mp mem ▸ converts, by simp⟩
          stemmed (by simpa [Modifiers.list] using more)
      simpa [Modifiers.text, Reading.written, operationsText] using yields

/-- What a part is built into is assembled, also before a pool of one is opened. -/
theorem Yields.assembled {w : Written} {node : Node Unit} (yields : shop.Yields w node) :
    node.Assembled shop.limit := by
  cases yields with
  | intro modifiers _ stemmed made =>
      exact shop.assembled_of_modifyAll stemmed.assembled (fun _ => zero_le_of_mem_list) made

/-! ### Operations -/

/-- A sign and a run of digits are an operation. -/
theorem exists_operation (operation : DicePool.Operation) {digits : Text} (nonempty : digits ≠ [])
    (plain : ∀ c ∈ digits, Text.isPlainDigit c = true) :
    ∃ written : Reading.Operation, written.text = operation.sign :: digits ∧
      written.digits.text = digits ∧
      written.modifier = ⟨.arithmetic, [operation.sign], Numeral.natOfPlain digits⟩ := by
  have isSign : operation.sign ∈ ['+', '-', '*', '/', '^'] := by
    cases operation <;> simp [DicePool.Operation.sign]
  have decimal : ∀ c ∈ digits, Text.isDecimal c = true :=
    fun c mem => Text.isDecimal_of_isPlainDigit (plain c mem)
  refine ⟨⟨⟨operation.sign, isSign⟩, ⟨digits, nonempty, decimal⟩⟩, rfl, rfl, ?_⟩
  rw [Reading.Operation.modifier, Numeral.natOfDecimals_eq_natOfPlain plain]

/-- An operation by its sign is arithmetic on the node, whatever the node is. -/
theorem modify_operation (operation : DicePool.Operation) {value : Nat}
    (noDivision : ¬(operation = .divide ∧ value = 0)) (node : Node Unit) :
    (shop.modify node ⟨.arithmetic, [operation.sign], value⟩).result =
      .ok (Node.arithmetic () operation value node) := by
  refine arithmetic?_eq_ok.mpr ⟨operation, ?_, Int.natCast_nonneg value, ?_, rfl⟩
  · cases operation <;> rfl
  · simpa using noDivision

/-! ### From parts to expressions and back -/

theorem Yields.exists_part {w : Written} {node : Node Unit} (yields : shop.Yields w node) :
    ∃ part : Part, part.text = w.text ∧ part.Converts shop.defaultFace ∧
      (shop.term (part.term shop.face)).result = .ok node.flatten := by
  cases yields with
  | intro modifiers converts stemmed made =>
      exact ⟨_, stemmed.text modifiers, (stemmed.converts modifiers).mpr converts,
        stemmed.result modifiers _ made⟩

/-- What is finished is left as it is. -/
theorem gather_of_flat {node : Node Unit} (flat : node.Flat) : gather [node] = node := by
  cases sort : node.isPool with
  | false => simp [gather, poured_of_not_isPool sort, Node.flatten]
  | true =>
      obtain ⟨items, rfl⟩ := exists_of_isPool sort
      simpa [gather, Node.poured] using flatten_of_flat flat

/-- A part alone is an expression. -/
theorem Yields.means {w : Written} {node : Node Unit} (yields : shop.Yields w node) :
    shop.Means w.text node.flatten := by
  obtain ⟨part, text, converts, made⟩ := yields.exists_part
  refine ⟨⟨part, []⟩, ?_, ⟨converts, trivial⟩, ?_⟩
  · simpa [Reading.text, Part.joined] using text
  · have alone : (shop.terms [part.term shop.face]).result = .ok [node.flatten] := by
      have nothing : (shop.terms []).result = .ok [] := rfl
      apply Assembly.result_bind_ok made
      exact Assembly.result_bind_ok nothing rfl
    apply Assembly.result_bind_ok alone
    exact congrArg Except.ok (gather_of_flat (shop.assembled_of_term part made).2)

/-- Dice stand before the modifiers of a part. -/
theorem stem_dice {quantity : Option Digits} {letter : OneOf ['d', 'D']} {face : Option Face}
    {pool : Node Unit} (faced : face.isSome ∨ shop.defaultFace.isSome)
    (counted : NumberConverts quantity)
    (made : (dice ('D' :: (face.map fun face => Text.upper face.text).getD shop.face)
      (number 1 quantity)).result = .ok pool) :
    shop.Stem (Part.dice quantity letter face)
      (Reading.written Run.text quantity ++ letter.char :: Reading.written Face.text face)
      pool where
  text modifiers := by simp [Part.text]
  modifiers _ := rfl
  converts _ := ⟨fun all => all.2.2, fun converts => ⟨faced, counted, converts⟩⟩
  assembled := shop.assembled_of_dice made
  result modifiers modified all := by
    apply Assembly.result_bind_ok made
    exact Assembly.result_bind_ok all rfl

/-- Parts in parentheses stand before the modifiers of a part. -/
theorem stem_group {first : Part} {rest : List Part} {parts : List (Node Unit)}
    (inside : Reading.Converts shop.defaultFace ⟨first, rest⟩)
    (made : (shop.terms (Part.terms shop.face (first :: rest))).result = .ok parts) :
    shop.Stem (Part.group first rest) ('(' :: Reading.text ⟨first, rest⟩ ++ [')'])
      (gather parts) where
  text modifiers := by simp [Part.text, Reading.text]
  modifiers _ := rfl
  converts _ := ⟨fun all => all.2.2, fun converts => ⟨inside.1, inside.2, converts⟩⟩
  assembled := (shop.assembled_gather_of_terms made).1
  result modifiers modified all := by
    apply Assembly.result_bind_ok made
    exact Assembly.result_bind_ok all rfl

/-- What a part is built into, before a pool of one is opened. -/
theorem yields_of_term (part : Part) {node : Node Unit}
    (converts : part.Converts shop.defaultFace)
    (made : (shop.term (part.term shop.face)).result = .ok node) :
    ∃ closed, node = closed.flatten ∧
      shop.Yields ⟨part.text, part.modifiers.algorithm.isSome, part.modifiers.operations.length⟩
        closed := by
  cases part with
  | dice quantity letter face modifiers =>
      obtain ⟨pool, diced, made⟩ := Assembly.result_bind_eq_ok.mp made
      obtain ⟨closed, all, made⟩ := Assembly.result_bind_eq_ok.mp made
      cases made
      obtain ⟨faced, counted, converts⟩ := converts
      have stemmed : shop.Stem (Part.dice quantity letter face) _ pool :=
        stem_dice faced counted diced
      refine ⟨closed, rfl, ?_⟩
      rw [stemmed.text]
      exact .intro modifiers converts stemmed all
  | group first rest modifiers =>
      obtain ⟨parts, termed, made⟩ := Assembly.result_bind_eq_ok.mp made
      obtain ⟨closed, all, made⟩ := Assembly.result_bind_eq_ok.mp made
      cases made
      obtain ⟨firstConverts, restConverts, converts⟩ := converts
      have stemmed := stem_group ⟨firstConverts, restConverts⟩ termed
      refine ⟨closed, rfl, ?_⟩
      rw [stemmed.text]
      exact .intro modifiers converts stemmed all

/-- An expression in parentheses is a part without modifiers. -/
theorem Means.yields {s : Text} {node : Node Unit} (means : shop.Means s node) :
    shop.Yields ⟨'(' :: s ++ [')'], false, 0⟩ node := by
  obtain ⟨⟨first, rest⟩, rfl, converts, assembled⟩ := means
  obtain ⟨parts, termed, gathered⟩ := Assembly.result_bind_eq_ok.mp assembled
  cases gathered
  exact (stem_group converts termed).yields

theorem Means.assembled {s : Text} {node : Node Unit} (means : shop.Means s node) :
    node.Assembled shop.limit ∧ node.Flat := by
  obtain ⟨reading, -, -, assembled⟩ := means
  exact shop.assembled_of_reading reading assembled

/-! ### Whole texts -/

/-- A text that is built is an expression, unless it is empty or has blanks around it. -/
theorem means_of_build {s : Text} {node : Node Unit} (built : (shop.build s).result = .ok node)
    (trimmed : Text.trim s = s) (nonempty : s ≠ []) :
    shop.Means s node ∧ node.isWritable = true := by
  obtain ⟨expression, parsed, assembled, writable⟩ := shop.build_eq_ok.mp built
  rcases parse_sound parsed with ⟨blank, -⟩ | ⟨reading, spells, converts, rfl⟩
  · exact absurd (trimmed.symm.trans blank) nonempty
  · exact ⟨⟨reading, spells.1.trans trimmed, converts, assembled⟩, writable⟩

/-- A text that is not read is not built, for the same reason. -/
theorem build_of_parse_error {s : Text} {fault : Fault}
    (refused : Expression.parse shop.defaultFace s = .error fault) :
    (shop.build s).result = .error fault := by
  rw [build, Assembly.result_bind, Assembly.result_ofExcept, refused]
  rfl

/-- An expression without blanks around it is built, if its node can be written. -/
theorem Means.build {s : Text} {node : Node Unit} (means : shop.Means s node)
    (trimmed : Text.trim s = s) (writable : node.isWritable = true) :
    (shop.build s).result = .ok node := by
  obtain ⟨reading, rfl, converts, assembled⟩ := means
  exact shop.build_eq_ok.mpr ⟨_, parse_text converts trimmed, assembled, writable⟩

end DicePool.Workshop
