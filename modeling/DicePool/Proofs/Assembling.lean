/-
Module: DicePool.Proofs.Assembling
Purpose: The shape of the nodes that expressions are assembled into.
Main exports: Assembly.result_bind_eq_ok, Assembly.result_bind_ok, Node.Assembled,
  Node.Assembled.checked, Node.Assembled.gather, Workshop.build_eq_ok,
  Workshop.assembled_and_flat_of_build, Workshop.assembled_of_build
-/
import DicePool.Assembly
import DicePool.Proofs.Spellings
import DicePool.Proofs.Parsing
import DicePool.Proofs.Rearranging

/-!
Expressions do not lead to every node that could be put together.  Assembling opens a pool
that stands in another one and takes its item for a pool of one, so a pool never holds a
pool, and a pool of one is left only where a modifier follows a single die.  Thresholds are
never below zero, and all explosions have the limit of the workshop.

This is what `Node.Assembled` says.  It is kept by every modifier and by gathering finished
terms, and so holds of every node that is assembled: `Workshop.assembled_of_build`.
-/

namespace DicePool

theorem Assembly.result_bind_eq_ok {β γ : Type} {work : Assembly β} {next : β → Assembly γ}
    {value : γ} :
    (work >>= next).result = .ok value ↔
      ∃ between, work.result = .ok between ∧ (next between).result = .ok value := by
  rw [result_bind]
  cases work.result with
  | error fault => simp [bind, Except.bind]
  | ok between => simp [bind, Except.bind]

/-- Where both steps have a result, the second one is that of both together. -/
theorem Assembly.result_bind_ok {β γ : Type} {work : Assembly β} {next : β → Assembly γ}
    {between : β} {value : γ} (first : work.result = .ok between)
    (second : (next between).result = .ok value) : (work >>= next).result = .ok value := by
  rw [Assembly.result_bind_eq_ok]
  exact ⟨between, first, second⟩

namespace Node

/-- Whether the node is a pool. -/
def isPool {α : Type} : Node α → Bool
  | pool _ _ => true
  | _ => false

theorem isEmptyPool_of_not_isPool {α : Type} {node : Node α} (noPool : node.isPool = false) :
    node.isEmptyPool = false := by
  cases node with
  | pool slot items => simp [isPool] at noPool
  | _ => rfl

/-- The nodes that assembling an expression can lead to, with this limit of explosions. -/
inductive Assembled (limit : Int) : Node Unit → Prop where
  | die {d : Die} (checked : d.Checked) : Assembled limit (die () d)
  | pool {items : List (Node Unit)} (each : ∀ item ∈ items, Assembled limit item)
      (noPool : ∀ item ∈ items, item.isPool = false)
      (several : (∃ d, items = [.die () d]) ∨ 2 ≤ items.length) :
      Assembled limit (pool () items)
  | arithmetic (operation : Operation) (value : Nat) {inner : Node Unit}
      (built : Assembled limit inner) (noDivision : ¬(operation = .divide ∧ value = 0)) :
      Assembled limit (arithmetic () operation value inner)
  | selection (s : Selection) (threshold : Nat) {items : List (Node Unit)}
      (built : Assembled limit (.pool () items)) (positive : 1 ≤ threshold)
      (fits : s.fits threshold items.length = true) :
      Assembled limit (selection () s threshold () items)
  | explosion (comparison : Comparison) (threshold : Nat) {inner : Node Unit}
      (built : Assembled limit inner) (possible : 0 ≤ limit)
      (explodes : inner.Explodes ⟨comparison, threshold, limit.toNat⟩) :
      Assembled limit (explosion () ⟨comparison, threshold, limit.toNat⟩ inner)

/-- The node is no pool of one and no empty pool. -/
def Flat (node : Node Unit) : Prop :=
  ∀ items, node = pool () items → 2 ≤ items.length

theorem flat_of_not_isPool {node : Node Unit} (noPool : node.isPool = false) : node.Flat := by
  rintro items rfl
  simp [isPool] at noPool

theorem flatten_of_not_isPool {node : Node Unit} (noPool : node.isPool = false) :
    node.flatten = node := by
  cases node with
  | pool slot items => simp [isPool] at noPool
  | _ => rfl

theorem poured_of_not_isPool {node : Node Unit} (noPool : node.isPool = false) :
    node.poured = [node] := by
  cases node with
  | pool slot items => simp [isPool] at noPool
  | _ => rfl

/-- A flat node is no pool of one that could be opened. -/
theorem flatten_of_flat {node : Node Unit} (flat : node.Flat) : node.flatten = node := by
  cases node with
  | pool slot items => exact flatten_pool slot (Nat.ne_of_gt (flat items rfl))
  | _ => rfl

theorem exists_of_isPool {node : Node Unit} (isPool : node.isPool = true) :
    ∃ items, node = pool () items := by
  cases node with
  | pool slot items => exact ⟨items, rfl⟩
  | _ => simp [Node.isPool] at isPool

namespace Assembled

variable {limit : Int} {node : Node Unit}

/-- Every node of the tree of an assembled node is checked. -/
theorem checked (built : node.Assembled limit) : ∀ sub ∈ node.subtrees, sub.Checked := by
  induction built with
  | die checked => simpa [subtrees, Node.Checked] using checked
  | @pool items _ noPool _ ih =>
      intro sub mem
      rcases List.mem_cons.mp mem with rfl | inside
      · exact fun item itemMem => isEmptyPool_of_not_isPool (noPool item itemMem)
      · rw [inside_pool] at inside
        obtain ⟨item, itemMem, subMem⟩ := List.mem_flatMap.mp inside
        exact ih item itemMem sub subMem
  | arithmetic operation value _ noDivision ih =>
      intro sub mem
      rcases List.mem_cons.mp mem with rfl | inside
      · exact noDivision
      · exact ih sub (by simpa using inside)
  | selection s threshold _ positive fits ih =>
      intro sub mem
      rcases List.mem_cons.mp mem with rfl | inside
      · exact ⟨positive, fits⟩
      · exact ih sub (by simpa using inside)
  | explosion comparison threshold _ _ explodes ih =>
      intro sub mem
      rcases List.mem_cons.mp mem with rfl | inside
      · exact explodes
      · exact ih sub (by simpa using inside)

theorem flatten (built : node.Assembled limit) :
    node.flatten.Assembled limit ∧ node.flatten.Flat := by
  cases sort : node.isPool with
  | false =>
      rw [flatten_of_not_isPool sort]
      exact ⟨built, flat_of_not_isPool sort⟩
  | true =>
      obtain ⟨items, rfl⟩ := exists_of_isPool sort
      cases built with
      | pool each noPool several =>
          rcases several with ⟨d, rfl⟩ | several
          · exact ⟨each (.die () d) (by simp), flat_of_not_isPool rfl⟩
          · rw [flatten_pool () (by omega)]
            refine ⟨.pool each noPool (.inr several), ?_⟩
            intro others same
            cases same
            exact several

theorem exists_die (built : node.Assembled limit) (isDie : node.isDie = true) :
    ∃ d, node = .die () d ∧ d.Checked := by
  cases built with
  | @die d checked => exact ⟨d, rfl, checked⟩
  | _ => contradiction

/-- Dice of one share are equal. -/
theorem eq_of_key_eq {one two : Node Unit} (built : one.Assembled limit)
    (builtToo : two.Assembled limit) (isDie : (key one).1 = true) (same : key one = key two) :
    one = two := by
  have isDieToo : (key two).1 = true := by rw [← same, isDie]
  obtain ⟨d, rfl, checked⟩ := built.exists_die isDie
  obtain ⟨d', rfl, checkedToo⟩ := builtToo.exists_die isDieToo
  rw [Die.spelling_injective checked checkedToo (congrArg Prod.snd same)]

/-- What a flat node pours into a pool. -/
theorem poured (built : node.Assembled limit) (flat : node.Flat) :
    node.poured ≠ [] ∧ ∀ item ∈ node.poured, item.Assembled limit ∧ item.isPool = false := by
  cases sort : node.isPool with
  | false =>
      rw [poured_of_not_isPool sort]
      refine ⟨by simp, fun item mem => ?_⟩
      obtain rfl := List.mem_singleton.mp mem
      exact ⟨built, sort⟩
  | true =>
      obtain ⟨items, rfl⟩ := exists_of_isPool sort
      cases built with
      | pool each noPool _ =>
          have several := flat items rfl
          refine ⟨?_, fun item mem => ⟨each item mem, noPool item mem⟩⟩
          rintro (rfl : items = [])
          contradiction

/-- Finished terms pour at least one node, and no pools. -/
theorem pour {parts : List (Node Unit)} (nonempty : parts ≠ [])
    (each : ∀ part ∈ parts, part.Assembled limit ∧ part.Flat) :
    parts.flatMap Node.poured ≠ [] ∧
      ∀ item ∈ parts.flatMap Node.poured, item.Assembled limit ∧ item.isPool = false := by
  constructor
  · obtain ⟨part, rest, rfl⟩ := List.exists_cons_of_ne_nil nonempty
    have first := each part (by simp)
    simp [(first.1.poured first.2).1]
  · intro item mem
    obtain ⟨part, partMem, itemMem⟩ := List.mem_flatMap.mp mem
    exact ((each part partMem).1.poured (each part partMem).2).2 item itemMem

/-- Finished terms make a node of the same kind. -/
theorem gather {parts : List (Node Unit)} (nonempty : parts ≠ [])
    (each : ∀ part ∈ parts, part.Assembled limit ∧ part.Flat) :
    (Workshop.gather parts).Assembled limit ∧ (Workshop.gather parts).Flat := by
  obtain ⟨nonempty, item⟩ := pour nonempty each
  unfold Workshop.gather
  generalize parts.flatMap Node.poured = items at item nonempty
  rcases Nat.lt_or_ge items.length 2 with few | several
  · have single : items.length = 1 :=
      Nat.le_antisymm (Nat.le_of_lt_succ few) (List.length_pos_of_ne_nil nonempty)
    obtain ⟨one, rfl⟩ := List.length_eq_one_iff.mp single
    obtain ⟨built, noPool⟩ := item one (by simp)
    exact ⟨built, flat_of_not_isPool noPool⟩
  · rw [flatten_pool () (by omega)]
    refine ⟨.pool (fun part mem => (item part mem).1) (fun part mem => (item part mem).2)
      (.inr several), ?_⟩
    intro others same
    cases same
    exact several

end Assembled

end Node

/-! ### Modifiers -/

namespace Workshop

open Node

variable (shop : Workshop)

/-- A modifier whose number is not below zero keeps the shape. -/
theorem assembled_of_modify {node modified : Node Unit} {modifier : Modifier}
    (built : node.Assembled shop.limit) (natural : 0 ≤ modifier.value)
    (made : (shop.modify node modifier).result = .ok modified) :
    modified.Assembled shop.limit := by
  obtain ⟨kind, operator, value⟩ := modifier
  cases kind with
  | arithmetic =>
      obtain ⟨operation, -, nonneg, noDivision, rfl⟩ := arithmetic?_eq_ok.mp made
      refine .arithmetic operation value.toNat built ?_
      rintro ⟨division, zero⟩
      exact noDivision ⟨division, Int.le_antisymm (Int.toNat_eq_zero.mp zero) nonneg⟩
  | dropKeep =>
      obtain ⟨s, slot, items, -, rfl, -, positive, fits, rfl⟩ := selection?_eq_ok.mp made
      refine .selection s value.toNat built ((Int.le_toNat natural).mpr positive) ?_
      rwa [Int.toNat_of_nonneg natural]
  | explode =>
      obtain ⟨comparison, -, possible, explodes, rfl⟩ :=
        (explosion?_eq_ok_iff_explodes built.checked).mp made
      obtain ⟨threshold, rfl⟩ := Int.eq_ofNat_of_zero_le natural
      exact .explosion comparison threshold built possible explodes

theorem assembled_of_modifyAll {modifiers : List Modifier} :
    ∀ {node modified : Node Unit}, node.Assembled shop.limit →
      (∀ modifier ∈ modifiers, 0 ≤ modifier.value) →
      (shop.modifyAll node modifiers).result = .ok modified → modified.Assembled shop.limit := by
  induction modifiers with
  | nil =>
      intro node modified built _ made
      cases made
      exact built
  | cons modifier rest ih =>
      intro node modified built natural made
      obtain ⟨between, first, others⟩ := Assembly.result_bind_eq_ok.mp made
      exact ih (shop.assembled_of_modify built (natural modifier (by simp)) first)
        (fun later mem => natural later (by simp [mem])) others

end Workshop

namespace Reading

theorem zero_le_of_mem_list {modifiers : Modifiers} {modifier : Modifier}
    (mem : modifier ∈ modifiers.list) : 0 ≤ modifier.value := by
  rcases List.mem_append.mp mem with mem | mem
  · obtain ⟨algorithm, -, rfl⟩ := List.mem_map.mp mem
    obtain ⟨mark, threshold⟩ := algorithm
    rcases mark with (_ | sign) | letters
    · exact Int.natCast_nonneg _
    · exact Int.natCast_nonneg _
    · exact Int.natCast_nonneg _
  · obtain ⟨operation, -, rfl⟩ := List.mem_map.mp mem
    exact Int.natCast_nonneg _

end Reading

/-! ### Terms -/

namespace Workshop

open Node Reading

variable (shop : Workshop)

/-- The face of dice that are written without one. Nothing is written where there is none. -/
def face : Text :=
  shop.defaultFace.getD []

/-- So many dice are a pool of equal dice of their type, of which there is at least one. -/
theorem dice_eq_ok {type : Text} {quantity : Int} {node : Node Unit} :
    (dice type quantity).result = .ok node ↔
      ∃ d count, Die.read type = .ok d ∧ 1 ≤ count ∧ quantity = (count : Nat) ∧
        node = .pool () (List.replicate count (.die () d)) := by
  have ofItems : ∀ (d : Die) (count : Nat),
      Node.ofItems () (List.replicate count (Node.die () d)) =
        .pool () (List.replicate count (.die () d)) := by
    intro d count
    simp [Node.ofItems, isEmptyPool]
  constructor
  · intro made
    obtain ⟨d, read, made⟩ := Assembly.result_bind_eq_ok.mp made
    obtain ⟨count, checked, made⟩ := Assembly.result_bind_eq_ok.mp made
    cases made
    obtain ⟨positive, same⟩ := checkQuantity_eq_ok.mp checked
    exact ⟨d, count, read, positive, same, ofItems d count⟩
  · rintro ⟨d, count, read, positive, same, rfl⟩
    apply Assembly.result_bind_ok read
    apply Assembly.result_bind_ok (checkQuantity_eq_ok.mpr ⟨positive, same⟩)
    exact congrArg Except.ok (ofItems d count)

/-- The dice of a term are checked, and there is at least one. -/
theorem assembled_of_dice {type : Text} {quantity : Int} {node : Node Unit}
    (made : (dice type quantity).result = .ok node) : node.Assembled shop.limit := by
  obtain ⟨d, count, read, positive, -, rfl⟩ := dice_eq_ok.mp made
  have dieChecked := Die.checked_of_read read
  refine .pool (fun item mem => ?_) (fun item mem => ?_) ?_
  · rw [List.eq_of_mem_replicate mem]
    exact .die dieChecked
  · rw [List.eq_of_mem_replicate mem]
    rfl
  · rcases Nat.lt_or_ge count 2 with single | several
    · obtain rfl : count = 1 := by omega
      exact .inl ⟨d, rfl⟩
    · exact .inr (by simpa using several)

mutual

theorem assembled_of_term : ∀ (part : Part) {node : Node Unit},
    (shop.term (part.term shop.face)).result = .ok node →
      node.Assembled shop.limit ∧ node.Flat
  | .dice quantity letter face modifiers, node, made => by
      obtain ⟨pool, diced, made⟩ := Assembly.result_bind_eq_ok.mp made
      obtain ⟨modified, all, made⟩ := Assembly.result_bind_eq_ok.mp made
      cases made
      exact (shop.assembled_of_modifyAll (shop.assembled_of_dice diced)
        (fun _ => zero_le_of_mem_list) all).flatten
  | .group first rest modifiers, node, made => by
      obtain ⟨parts, termed, made⟩ := Assembly.result_bind_eq_ok.mp made
      obtain ⟨modified, all, made⟩ := Assembly.result_bind_eq_ok.mp made
      cases made
      obtain ⟨firstNode, termedFirst, termed⟩ := Assembly.result_bind_eq_ok.mp termed
      obtain ⟨others, termedOthers, termed⟩ := Assembly.result_bind_eq_ok.mp termed
      cases termed
      have each : ∀ part ∈ firstNode :: others, part.Assembled shop.limit ∧ part.Flat := by
        intro part mem
        rcases List.mem_cons.mp mem with rfl | mem
        · exact assembled_of_term first termedFirst
        · exact assembled_of_terms rest termedOthers part mem
      exact (shop.assembled_of_modifyAll (Assembled.gather (by simp) each).1
        (fun _ => zero_le_of_mem_list) all).flatten

theorem assembled_of_terms : ∀ (parts : List Part) {nodes : List (Node Unit)},
    (shop.terms (Part.terms shop.face parts)).result = .ok nodes →
      ∀ node ∈ nodes, node.Assembled shop.limit ∧ node.Flat
  | [], nodes, made => by
      cases made
      simp
  | part :: rest, nodes, made => by
      obtain ⟨first, termedFirst, made⟩ := Assembly.result_bind_eq_ok.mp made
      obtain ⟨others, termedOthers, made⟩ := Assembly.result_bind_eq_ok.mp made
      cases made
      intro node mem
      rcases List.mem_cons.mp mem with rfl | mem
      · exact assembled_of_term part termedFirst
      · exact assembled_of_terms rest termedOthers node mem

end

/-- Parts are gathered into an assembled node that is no pool of one. -/
theorem assembled_gather_of_terms {first : Part} {rest : List Part} {nodes : List (Node Unit)}
    (termed : (shop.terms (Part.terms shop.face (first :: rest))).result = .ok nodes) :
    (gather nodes).Assembled shop.limit ∧ (gather nodes).Flat := by
  have nonempty : nodes ≠ [] := by
    rintro rfl
    obtain ⟨one, -, others⟩ := Assembly.result_bind_eq_ok.mp termed
    obtain ⟨rest, -, made⟩ := Assembly.result_bind_eq_ok.mp others
    cases made
  exact Assembled.gather nonempty (shop.assembled_of_terms (first :: rest) termed)

/-- An expression is assembled into an assembled node that is no pool of one. -/
theorem assembled_of_reading (reading : Reading) {node : Node Unit}
    (made : (shop.assemble (reading.terms shop.face)).result = .ok node) :
    node.Assembled shop.limit ∧ node.Flat := by
  obtain ⟨nodes, termed, made⟩ := Assembly.result_bind_eq_ok.mp made
  cases made
  exact shop.assembled_gather_of_terms termed

/-- A text is built if it is an expression that can be assembled into a node that can be
written. -/
theorem build_eq_ok {s : Text} {node : Node Unit} :
    (shop.build s).result = .ok node ↔
      ∃ expression, Expression.parse shop.defaultFace s = .ok expression ∧
        (shop.assemble expression).result = .ok node ∧ node.isWritable = true := by
  have finish_eq_ok : ∀ made : Node Unit,
      finish made = .ok node ↔ made = node ∧ node.isWritable = true := by
    intro made
    unfold finish
    split
    · next writable =>
        rw [Except.ok.injEq]
        exact ⟨fun same => ⟨same, same ▸ writable⟩, And.left⟩
    · next unwritable =>
        simp only [reduceCtorEq, false_iff]
        rintro ⟨rfl, writable⟩
        exact unwritable writable
  constructor
  · intro built
    obtain ⟨expression, parsed, built⟩ := Assembly.result_bind_eq_ok.mp built
    obtain ⟨made, assembled, finished⟩ := Assembly.result_bind_eq_ok.mp built
    obtain ⟨rfl, writable⟩ := (finish_eq_ok made).mp finished
    exact ⟨expression, parsed, assembled, writable⟩
  · rintro ⟨expression, parsed, assembled, writable⟩
    apply Assembly.result_bind_ok parsed
    apply Assembly.result_bind_ok assembled
    exact (finish_eq_ok node).mpr ⟨rfl, writable⟩

/-- A blank text is built into the empty pool, and any other one into an assembled node that
is no pool of one. -/
theorem assembled_and_flat_of_build {s : Text} {node : Node Unit}
    (built : (shop.build s).result = .ok node) :
    (Text.trim s = [] ∧ node = .pool () []) ∨
      (Text.trim s ≠ [] ∧ node.Assembled shop.limit ∧ node.Flat) := by
  obtain ⟨expression, parsed, assembled, -⟩ := shop.build_eq_ok.mp built
  rcases parse_sound parsed with ⟨blank, rfl⟩ | ⟨reading, spells, -, rfl⟩
  · cases assembled
    exact .inl ⟨blank, rfl⟩
  · refine .inr ⟨?_, shop.assembled_of_reading reading assembled⟩
    rw [← spells.1]
    exact fun empty => reading.first.text_ne_nil (List.append_eq_nil_iff.mp empty).1

/-- A text is built into the empty pool or into an assembled node. -/
theorem assembled_of_build {s : Text} {node : Node Unit}
    (built : (shop.build s).result = .ok node) :
    node.isEmptyPool = true ∨ node.Assembled shop.limit := by
  rcases shop.assembled_and_flat_of_build built with ⟨-, rfl⟩ | ⟨-, assembled, -⟩
  · exact .inl rfl
  · exact .inr assembled

end Workshop

end DicePool
