/-
Module: DicePool.Proofs.Composing
Purpose: Texts that are put together are built into what their nodes make together.
Main exports: Node.reckon_pool, Node.Sums, Node.sums_pool, Node.Applies, Node.applies_arithmetic,
  Workshop.Means.join, Workshop.Operates, Workshop.adds_and_operates_of_build
-/
import DicePool.Proofs.Canonical
import DicePool.Proofs.Building

/-!
Two texts that are built can be joined by a plus sign, put in parentheses, and followed by
an operation, and what comes out is known from the two nodes alone.

At the seam nothing is read differently, because the readings of the two texts are put
together and a text has one reading only.  Behind the seam a pool is poured into the pool
around it.  So the node of a joined text need not have the nodes of the two texts in it, but
it goes through the same steps in the same order: `Node.sums_pool`.

What comes out may still be too long to be written.  A value that was nobody's addend stands in
a line of the whole, and there the whole ends that the parts alone would not have ended.
-/

namespace DicePool

/-! ### Answers one after the other -/

namespace Node

variable {α : Type}

theorem rollAll_bounds (draws : Draws) (items : List (Node α)) (side : Extreme) (position : Nat) :
    rollAll (items.map fun item => item.reckon draws side.measure) position
      = ⟨(boundEach items side).values, position, (boundEach items side).entries⟩ := by
  induction items with
  | nil => rfl
  | cons item rest ih =>
      cases side <;> simp only [List.map_cons, rollAll, Extreme.measure, reckon] at ih ⊢ <;>
        rw [ih, boundEach]

/-- A pool adds up what its items come to, whatever is asked for. -/
theorem reckon_pool (draws : Draws) (slot : α) (items : List (Node α)) (measure : Measure)
    (position : Nat) :
    let each := rollAll (items.map fun item => item.reckon draws measure) position
    (pool slot items).reckon draws measure position
      = ⟨total each.values, each.next,
          each.entries ++ [⟨pool slot items, measure, .sum each.values, total each.values⟩]⟩ := by
  cases measure with
  | roll => exact roll_pool draws slot items position
  | minimum =>
      have each : rollAll (items.map fun item => item.reckon draws .minimum) position = _ :=
        rollAll_bounds draws items .lowest position
      rw [each]
      rfl
  | maximum =>
      have each : rollAll (items.map fun item => item.reckon draws .maximum) position = _ :=
        rollAll_bounds draws items .highest position
      rw [each]
      rfl

/-- The value of the node can stand in the line of a pool that the node is poured into. What the
items of a pool came to has already stood in a line. -/
def addable (node : Node α) (value : Int) : Bool :=
  node.isPool || Numeral.isWritable value

/-- What a node comes to is what it pours comes to. -/
theorem reckon_poured (draws : Draws) (node : Node α) (measure : Measure) (position : Nat) :
    let each := rollAll (node.poured.map fun item => item.reckon draws measure) position
    let own := node.reckon draws measure position
    own.value = total each.values ∧ own.next = each.next ∧
      (own.isWritten && node.addable own.value)
        = (each.entries.all Entry.isWritten && each.values.all Numeral.isWritable) := by
  cases node with
  | pool slot items =>
      simp only [reckon_pool, poured]
      simp [Roll.isWritten, addable, isPool, Entry.isWritten, Line.isWritable]
  | _ => simp [poured, rollAll, total, Roll.isWritten, addable, isPool]

/-- What two nodes pour into one pool comes to what they come to one after the other. -/
theorem reckon_pool_poured (draws : Draws) (slot : α) (one two : Node α) (measure : Measure)
    (position : Nat) :
    let first := one.reckon draws measure position
    let second := two.reckon draws measure first.next
    let both := (pool slot (one.poured ++ two.poured)).reckon draws measure position
    both.value = first.value + second.value ∧ both.next = second.next ∧
      both.isWritten = ((first.isWritten && one.addable first.value) &&
        (second.isWritten && two.addable second.value)) := by
  obtain ⟨value, next, written⟩ := reckon_poured draws one measure position
  obtain ⟨value', next', written'⟩ :=
    reckon_poured draws two measure (one.reckon draws measure position).next
  dsimp only
  rw [written, written', value', next', value, reckon_pool]
  simp only [List.map_append, rollAll_append, ← next]
  refine ⟨by simp, trivial, ?_⟩
  simp only [Roll.isWritten, Entry.isWritten, Line.isWritable, List.all_append, List.all_cons,
    List.all_nil, Bool.and_true]
  ac_rfl

/-- Whatever is asked for, the sum answers what the two nodes answer one after the other, added
up, and goes on with the draws that they leave. It ends where one of them does, and where the
value of one is too long for the line that the two share. -/
def Sums (sum one two : Node α) : Prop :=
  ∀ heard draws measure position,
    let first := one.reply heard draws measure position
    let second := two.reply heard draws measure first.next
    let both := sum.reply heard draws measure position
    both.result = (do
      let a ← first.result
      let b ← second.result
      if one.addable a && two.addable b then .ok (a + b) else .error .numberTooLong) ∧
    ∀ value, both.result = .ok value → both.next = second.next

/-- What two nodes pour into one pool adds up. -/
theorem sums_pool {one two : Node α} {slot : α} (checked : ∀ sub ∈ one.subtrees, sub.Checked)
    (checkedToo : ∀ sub ∈ two.subtrees, sub.Checked)
    (checkedSum : ∀ sub ∈ (pool slot (one.poured ++ two.poured)).subtrees, sub.Checked) :
    Sums (pool slot (one.poured ++ two.poured)) one two := by
  intro heard draws measure position
  obtain ⟨value, next, written⟩ := reckon_pool_poured draws slot one two measure position
  have both := result_reply_eq heard draws checkedSum measure position
  rw [← Roll.isWritten, written, value] at both
  cases writtenOne : (one.reckon draws measure position).isWritten with
  | false =>
      obtain ⟨stop, -, -, first⟩ :=
        reply_of_not_written heard draws checked measure position writtenOne
      rw [writtenOne] at both
      simp [both, first, bind, Except.bind]
  | true =>
      have first := reply_of_written heard draws checked measure position writtenOne
      cases writtenTwo : (two.reckon draws measure
          (one.reckon draws measure position).next).isWritten with
      | false =>
          obtain ⟨stop, -, -, second⟩ := reply_of_not_written heard draws checkedToo measure
            (one.reckon draws measure position).next writtenTwo
          rw [writtenTwo] at both
          simp [both, first, second, bind, Except.bind]
      | true =>
          have second := reply_of_written heard draws checkedToo measure
            (one.reckon draws measure position).next writtenTwo
          rw [writtenOne, writtenTwo, Bool.true_and, Bool.true_and] at both
          simp only [first, second, bind, Except.bind]
          refine ⟨both, fun total answered => ?_⟩
          rw [(reply_eq_ok heard draws checkedSum measure position answered).2, next]

/-! ### Pools of one die -/

theorem exists_reckon_die (draws : Draws) (slot : α) (d : Die) (measure : Measure)
    (position : Nat) :
    ∃ value next, (die slot d).reckon draws measure position
      = ⟨value, next, [⟨die slot d, measure, .sum [value], value⟩]⟩ := by
  cases measure with
  | roll => exact ⟨_, _, roll_die draws slot d position⟩
  | minimum => exact ⟨d.lowest, position, by simp [reckon, bound, Die.extreme, Extreme.measure]⟩
  | maximum => exact ⟨d.highest, position, by simp [reckon, bound, Die.extreme, Extreme.measure]⟩

/-- It does not matter whether a pool of one die or the die is asked: it comes to the same, and
the lines have the same number in them. -/
theorem reckon_flatten {node : Node α} (lone : node.LoneDie) (draws : Draws) (measure : Measure)
    (position : Nat) :
    let flat := node.flatten.reckon draws measure position
    let own := node.reckon draws measure position
    own.value = flat.value ∧ own.next = flat.next ∧ own.isWritten = flat.isWritten := by
  unfold flatten
  split
  · next slot item =>
      have isDie := lone slot item rfl
      cases item with
      | die slot' d =>
          obtain ⟨value, next, reckoned⟩ := exists_reckon_die draws slot' d measure position
          dsimp only
          rw [reckon_pool]
          simp [rollAll, reckoned, Roll.isWritten, Entry.isWritten, Line.isWritable]
      | _ => contradiction
  · exact ⟨rfl, rfl, rfl⟩

/-- A roll of the operation is a roll of the node, and the operation applied to what comes out.
It also ends where that is too long for a line. -/
def Applies (applied : Node α) (operation : Operation) (value : Nat) (node : Node α) : Prop :=
  ∀ heard draws position,
    let base := node.reply heard draws .roll position
    let rolled := applied.reply heard draws .roll position
    rolled.result = (do
      let lhs ← base.result
      if Numeral.isWritable lhs then .ok (operation.apply lhs value) else .error .numberTooLong) ∧
    ∀ result, rolled.result = .ok result → rolled.next = base.next

/-- An operation with a number that can be written is applied to a node, also where a pool of
one die is still to be opened. -/
theorem applies_arithmetic {node : Node α} (lone : node.LoneDie) (slot : α)
    (operation : Operation) {value : Nat} (counted : Numeral.isWritable value = true)
    (noDivision : ¬(operation = .divide ∧ value = 0))
    (checked : ∀ sub ∈ node.subtrees, sub.Checked)
    (checkedFlat : ∀ sub ∈ node.flatten.subtrees, sub.Checked) :
    Applies (arithmetic slot operation value node) operation value node.flatten := by
  intro heard draws position
  have checkedWhole : ∀ sub ∈ (arithmetic slot operation value node).subtrees, sub.Checked := by
    intro sub mem
    rcases List.mem_cons.mp mem with rfl | inside
    · exact noDivision
    · exact checked sub (by simpa using inside)
  obtain ⟨same, next, written⟩ := reckon_flatten lone draws .roll position
  have whole : (arithmetic slot operation value node).reckon draws .roll position = _ :=
    roll_arithmetic draws slot operation value node position
  have rolled := result_reply_eq heard draws checkedWhole .roll position
  have calculated : ((arithmetic slot operation value node).reckon draws .roll position).isWritten =
      ((node.flatten.reckon draws .roll position).isWritten &&
        Numeral.isWritable (node.flatten.reckon draws .roll position).value) := by
    rw [← same, ← written, whole]
    simp [Roll.isWritten, Entry.isWritten, Line.isWritable, counted, reckon]
  rw [← Roll.isWritten, calculated] at rolled
  cases base : (node.flatten.reckon draws .roll position).isWritten with
  | false =>
      obtain ⟨stop, -, -, failed⟩ :=
        reply_of_not_written heard draws checkedFlat .roll position base
      rw [base] at rolled
      simp [rolled, failed, bind, Except.bind]
  | true =>
      have answered := reply_of_written heard draws checkedFlat .roll position base
      rw [base, Bool.true_and, whole] at rolled
      simp only [answered, bind, Except.bind]
      refine ⟨?_, fun result total => ?_⟩
      · rw [rolled, ← same]
        rfl
      · rw [(reply_eq_ok heard draws checkedWhole .roll position total).2, whole]
        exact next

end Node

/-! ### Counts of a pool -/

theorem Share.count_le_length (items : List (Bool × Text)) :
    ∀ share ∈ ofItems items, share.count ≤ items.length := by
  induction items with
  | nil => simp [ofItems]
  | cons item rest ih =>
      intro share mem
      have behind : ∀ other ∈ ofItems rest, other.count ≤ (item :: rest).length :=
        fun other mem => Nat.le_succ_of_le (ih other mem)
      have alone : 1 ≤ (item :: rest).length := Nat.succ_le_succ (Nat.zero_le _)
      rw [ofItems, List.foldr_cons, ← ofItems, add] at mem
      split at mem
      · split at mem
        · next found =>
            rcases List.mem_cons.mp mem with rfl | mem
            · exact Nat.succ_le_succ (ih _ (List.mem_of_find?_eq_some found))
            · exact behind share (List.mem_of_mem_eraseP mem)
        · rcases List.mem_cons.mp mem with rfl | mem
          · exact alone
          · exact behind share mem
      · rcases List.mem_cons.mp mem with rfl | mem
        · exact alone
        · exact behind share mem

namespace Node

/-- A pool of nodes that can be written can be written, if that holds of the number of them. -/
theorem isWritable_pool_of {items : List (Node Unit)}
    (few : Numeral.isWritable items.length = true)
    (each : ∀ item ∈ items, item.isWritable = true) : (pool () items).isWritable = true := by
  rw [isWritable_pool, Bool.and_eq_true, List.all_eq_true, List.all_eq_true]
  refine ⟨fun count mem => ?_, each⟩
  obtain ⟨share, shareMem, rfl⟩ := List.mem_map.mp mem
  have atMost := Share.count_le_length _ share shareMem
  rw [List.length_map, writtenEach_eq_map, List.length_map] at atMost
  exact Numeral.isWritable_of_natAbs_le few (by simpa using atMost)

theorem isWritable_of_mem_poured {node item : Node Unit} (writable : node.isWritable = true)
    (mem : item ∈ node.poured) : item.isWritable = true := by
  cases node with
  | pool slot items =>
      rw [isWritable_pool, Bool.and_eq_true, List.all_eq_true (p := isWritable)] at writable
      exact writable.2 item mem
  | _ =>
      obtain rfl := List.mem_singleton.mp mem
      exact writable

end Node

/-! ### Parts of two texts -/

namespace Reading

theorem Part.joined_append (parts later : List Part) :
    Part.joined (parts ++ later) = Part.joined parts ++ Part.joined later := by
  induction parts with
  | nil => rfl
  | cons part rest ih => simp [Part.joined, ih]

theorem Part.terms_append (face : Text) (parts later : List Part) :
    Part.terms face (parts ++ later) = Part.terms face parts ++ Part.terms face later := by
  induction parts with
  | nil => rfl
  | cons part rest ih => simp [Part.terms, ih]

theorem Part.convertsEach_append (defaultFace : Option Text) (parts later : List Part) :
    Part.ConvertsEach defaultFace (parts ++ later) ↔
      Part.ConvertsEach defaultFace parts ∧ Part.ConvertsEach defaultFace later := by
  induction parts with
  | nil => simp [Part.ConvertsEach]
  | cons part rest ih => simp [Part.ConvertsEach, ih, and_assoc]

theorem Part.modifiers_term (face : Text) (part : Part) :
    (part.term face).modifiers = part.modifiers.list := by
  cases part <;> rfl

/-- The operations of a part are its arithmetic modifiers. -/
theorem countP_arithmetic (modifiers : Modifiers) :
    (modifiers.list.countP fun modifier => modifier.kind = .arithmetic) =
      modifiers.operations.length := by
  obtain ⟨algorithm, operations, few⟩ := modifiers
  have others : (algorithm.toList.map Algorithm.modifier).countP
      (fun modifier => modifier.kind = .arithmetic) = 0 := by
    rw [List.countP_eq_zero]
    intro modifier mem
    obtain ⟨⟨mark, threshold⟩, -, rfl⟩ := List.mem_map.mp mem
    rcases mark with (_ | sign) | letters <;> simp [Algorithm.modifier]
  have counted : (operations.map Operation.modifier).countP
      (fun modifier => modifier.kind = .arithmetic) = operations.length := by
    rw [List.countP_map, List.countP_eq_length]
    intro operation _
    rfl
  rw [Modifiers.list, List.countP_append, others, counted, Nat.zero_add]

end Reading

namespace Workshop

open Node Reading

variable {shop : Workshop}

theorem terms_append {first second : List Term} {nodes others : List (Node Unit)}
    (made : (shop.terms first).result = .ok nodes)
    (madeToo : (shop.terms second).result = .ok others) :
    (shop.terms (first ++ second)).result = .ok (nodes ++ others) := by
  induction first generalizing nodes with
  | nil =>
      cases made
      exact madeToo
  | cons term rest ih =>
      obtain ⟨node, termed, made⟩ := Assembly.result_bind_eq_ok.mp made
      obtain ⟨later, termedLater, made⟩ := Assembly.result_bind_eq_ok.mp made
      cases made
      apply Assembly.result_bind_ok termed
      exact Assembly.result_bind_ok (ih termedLater) rfl

/-- What is gathered of finished terms pours what they pour. -/
theorem poured_gather {parts : List (Node Unit)}
    (each : ∀ part ∈ parts, part.Assembled shop.limit ∧ part.Flat) :
    (gather parts).poured = parts.flatMap Node.poured := by
  have noPool : ∀ item ∈ parts.flatMap Node.poured, item.isPool = false := by
    intro item mem
    obtain ⟨part, partMem, itemMem⟩ := List.mem_flatMap.mp mem
    exact (((each part partMem).1.poured (each part partMem).2).2 item itemMem).2
  unfold gather
  generalize parts.flatMap Node.poured = items at noPool
  unfold Node.flatten
  split
  · next slot item same =>
      cases same
      exact poured_of_not_isPool (noPool item (by simp))
  · rfl

/-- Expressions with a plus sign between them are an expression, which is built into the pool of
what both pour. -/
theorem Means.join {s t : Text} {one two : Node Unit} (means : shop.Means s one)
    (meansToo : shop.Means t two) :
    shop.Means (s ++ '+' :: t) (Node.pool () (one.poured ++ two.poured)) := by
  obtain ⟨nonempty, -⟩ := means.assembled.1.poured means.assembled.2
  obtain ⟨nonemptyToo, -⟩ := meansToo.assembled.1.poured meansToo.assembled.2
  have several : (one.poured ++ two.poured).length ≠ 1 := by
    have first := List.length_pos_of_ne_nil nonempty
    have second := List.length_pos_of_ne_nil nonemptyToo
    rw [List.length_append]
    omega
  obtain ⟨⟨first, rest⟩, rfl, ⟨firstConverts, restConvert⟩, assembled⟩ := means
  obtain ⟨⟨second, later⟩, rfl, converts, assembledToo⟩ := meansToo
  obtain ⟨parts, termed, made⟩ := Assembly.result_bind_eq_ok.mp assembled
  obtain ⟨others, termedToo, madeToo⟩ := Assembly.result_bind_eq_ok.mp assembledToo
  cases made
  cases madeToo
  refine ⟨⟨first, rest ++ second :: later⟩, ?_, ⟨firstConverts, ?_⟩, ?_⟩
  · simp [Reading.text, Part.joined_append, Part.joined]
  · exact (Part.convertsEach_append _ rest (second :: later)).mpr ⟨restConvert, converts⟩
  · rw [poured_gather (shop.assembled_of_terms (first :: rest) termed),
      poured_gather (shop.assembled_of_terms (second :: later) termedToo)] at several ⊢
    have gathered : gather (parts ++ others) =
        Node.pool () (parts.flatMap Node.poured ++ others.flatMap Node.poured) := by
      rw [gather, List.flatMap_append, flatten_pool () several]
    have termedAll := terms_append termed termedToo
    rw [Reading.terms, Part.terms_append, ← gathered]
    exact Assembly.result_bind_ok termedAll rfl

/-! ### Sums -/

/-- The text is built into the sum of the two nodes, unless so many equal dice come together that
their number is too long to be written. -/
def Adds (shop : Workshop) (s : Text) (one two : Node Unit) : Prop :=
  ∃ sum, sum.Sums one two ∧ (shop.build s).result = finish sum ∧
    (Numeral.isWritable (one.poured.length + two.poured.length) = true →
      (shop.build s).result = .ok sum)

/-- An expression without blanks around it is finished, and so it is built or too long. -/
theorem Means.finish {s : Text} {node : Node Unit} (means : shop.Means s node)
    (trimmed : Text.trim s = s) : (shop.build s).result = finish node := by
  obtain ⟨reading, rfl, converts, assembled⟩ := means
  rw [Workshop.build, Assembly.result_bind, Assembly.result_ofExcept, parse_text converts trimmed]
  change (shop.assemble (reading.terms shop.face) >>= fun node =>
    Assembly.ofExcept (Workshop.finish node)).result = _
  rw [Assembly.result_bind, assembled]
  rfl

theorem Means.adds {s t : Text} {one two : Node Unit} (means : shop.Means s one)
    (meansToo : shop.Means t two) (writable : one.isWritable = true)
    (writableToo : two.isWritable = true)
    (trimmed : Text.trim (s ++ '+' :: t) = s ++ '+' :: t) : shop.Adds (s ++ '+' :: t) one two := by
  have joined := means.join meansToo
  refine ⟨_, sums_pool means.assembled.1.checked meansToo.assembled.1.checked
    joined.assembled.1.checked, joined.finish trimmed, fun few => joined.build trimmed ?_⟩
  refine isWritable_pool_of (by simpa using few) fun item mem => ?_
  rcases List.mem_append.mp mem with mem | mem
  · exact isWritable_of_mem_poured writable mem
  · exact isWritable_of_mem_poured writableToo mem

/-! ### Operations -/

/-- Behind the text the operation is applied to the node. It is refused if its number has more
digits than can be converted, and only then. -/
def Operates (shop : Workshop) (s : Text) (operation : DicePool.Operation) (digits : Text)
    (node : Node Unit) : Prop :=
  (digits.length ≤ Numeral.digitLimit →
    ∃ applied, (shop.build (s ++ operation.sign :: digits)).result = .ok applied ∧
      applied.Applies operation (Numeral.natOfPlain digits) node) ∧
  (Numeral.digitLimit < digits.length →
    (shop.build (s ++ operation.sign :: digits)).result = .error .unconvertedNumber)

/-- A part with an operation behind it whose number has too many digits is not converted. -/
theorem Yields.refused {w : Written} {closed : Node Unit} (yields : shop.Yields w closed)
    (room : w.operations < 2) (operation : Reading.Operation)
    (long : Numeral.digitLimit < operation.digits.text.length)
    (trimmed : Text.trim (w.text ++ operation.text) = w.text ++ operation.text) :
    (shop.build (w.text ++ operation.text)).result = .error .unconvertedNumber := by
  cases yields with
  | @intro stem _ _ _ modifiers _ stemmed _ =>
      obtain ⟨algorithm, operations, few⟩ := modifiers
      have fits : (operations ++ [operation]).length ≤ 2 := by
        rw [List.length_append]
        exact room
      let reading : Reading := ⟨stem ⟨algorithm, operations ++ [operation], fits⟩, []⟩
      have fails : ¬reading.Converts shop.defaultFace := by
        rintro ⟨converts, -⟩
        exact Nat.not_le.mpr long
          (((stemmed.converts _).mp converts).operations operation (by simp))
      refine build_of_parse_error (parse_text_of_not_converts fails (trimmed.trans ?_))
      simp [reading, Reading.text, stemmed.text, Modifiers.text, operationsText, Part.joined]

/-- An operation goes behind a part with room for it, and is applied to what the part is
built into. -/
theorem Yields.operates {w : Written} {closed : Node Unit} (yields : shop.Yields w closed)
    (room : w.operations < 2) (writable : closed.isWritable = true)
    (operation : DicePool.Operation) {digits : Text} (nonempty : digits ≠ [])
    (plain : ∀ c ∈ digits, Text.isPlainDigit c = true)
    (noDivision : ¬(operation = .divide ∧ Numeral.natOfPlain digits = 0))
    (trimmed :
      Text.trim (w.text ++ operation.sign :: digits) = w.text ++ operation.sign :: digits) :
    shop.Operates w.text operation digits closed.flatten := by
  obtain ⟨written, text, same, modifier⟩ := exists_operation operation nonempty plain
  rw [← text] at trimmed
  constructor
  · intro short
    have counted : Numeral.isWritable (Numeral.natOfPlain digits) = true := by
      rw [← Numeral.natOfDecimals_eq_natOfPlain plain]
      exact Numeral.isWritable_of_convert? (if_pos short)
    have made : (shop.modify closed written.modifier).result =
        .ok (Node.arithmetic () operation (Numeral.natOfPlain digits) closed) := by
      rw [modifier]
      exact modify_operation operation noDivision closed
    have means := (yields.operate room written (by rwa [same]) made).means
    rw [flatten_of_not_isPool rfl] at means
    rw [← text]
    refine ⟨_, means.build trimmed ?_, applies_arithmetic yields.assembled.loneDie () operation
      counted noDivision yields.assembled.checked yields.assembled.flatten.1.checked⟩
    rw [isWritable_arithmetic, counted, writable, Bool.true_and]
  · intro long
    rw [← text]
    exact yields.refused room written (by rwa [same]) trimmed

/-- A single term with at most one arithmetic modifier has room for a further operation. -/
theorem Means.exists_yields {s : Text} {node : Node Unit} (means : shop.Means s node)
    (trimmed : Text.trim s = s) {term : Term}
    (single : Expression.parse shop.defaultFace s = .ok [term])
    (few : (term.modifiers.countP fun modifier => modifier.kind = .arithmetic) ≤ 1) :
    ∃ w closed, w.text = s ∧ w.operations < 2 ∧ shop.Yields w closed ∧ closed.flatten = node := by
  obtain ⟨⟨part, rest⟩, rfl, converts, assembled⟩ := means
  rw [parse_text converts trimmed] at single
  obtain ⟨rfl, noMore⟩ := List.cons.inj (Except.ok.inj single)
  have alone : rest = [] := by
    cases rest with
    | nil => rfl
    | cons => contradiction
  subst alone
  obtain ⟨parts, termed, made⟩ := Assembly.result_bind_eq_ok.mp assembled
  obtain ⟨first, termedFirst, termed⟩ := Assembly.result_bind_eq_ok.mp termed
  cases termed
  cases made
  obtain ⟨closed, rfl, yields⟩ := yields_of_term part converts.1 termedFirst
  refine ⟨_, closed, ?_, ?_, yields, ?_⟩
  · simp [Reading.text, Part.joined]
  · rw [part.modifiers_term, countP_arithmetic] at few
    exact Nat.lt_succ_of_le few
  · exact (gather_of_flat (shop.assembled_of_term part termedFirst).2).symm

/-- Expressions compose, up to numbers that are too long.  Of two texts that are built, which are
not empty and have no blanks around them:

* with a plus sign between them they are built into the sum of their nodes;
* in parentheses the first is built into its own node again;
* behind these parentheses an operation other than a division by zero is applied to its node,
  and the parentheses can be left out behind a single term with at most one arithmetic
  modifier, so that arithmetic is read from left to right. -/
theorem adds_and_operates_of_build {shop : Workshop} {s t : Text} {one two : Node Unit}
    (built : (shop.build s).result = .ok one) (trimmed : Text.trim s = s) (nonempty : s ≠ [])
    (builtToo : (shop.build t).result = .ok two) (trimmedToo : Text.trim t = t)
    (nonemptyToo : t ≠ []) :
    shop.Adds (s ++ '+' :: t) one two ∧
    (shop.build ('(' :: s ++ [')'])).result = .ok one ∧
    ∀ (operation : DicePool.Operation) (digits : Text), digits ≠ [] →
      (∀ c ∈ digits, Text.isPlainDigit c = true) →
      ¬(operation = .divide ∧ Numeral.natOfPlain digits = 0) →
        shop.Operates ('(' :: s ++ [')']) operation digits one ∧
        ∀ term, Expression.parse shop.defaultFace s = .ok [term] →
          (term.modifiers.countP fun modifier => modifier.kind = .arithmetic) ≤ 1 →
            shop.Operates s operation digits one := by
  obtain ⟨means, writable⟩ := means_of_build built trimmed nonempty
  obtain ⟨meansToo, writableToo⟩ := means_of_build builtToo trimmedToo nonemptyToo
  have enclosed := means.yields
  have flat := flatten_of_flat means.assembled.2
  refine ⟨?_, ?_, ?_⟩
  · exact means.adds meansToo writable writableToo
      (Text.trim_append_append trimmed nonempty trimmedToo nonemptyToo ['+'])
  · have whole := enclosed.means
    rw [flat] at whole
    exact whole.build
      (Text.trim_append_append (s := ['(']) rfl (by simp) (t := [')']) rfl (by simp) s) writable
  · intro operation digits nonemptyDigits plain noDivision
    have trimmedDigits : Text.trim digits = digits :=
      Text.trimBy_of_all fun c mem => Text.isBlank_of_isPlainDigit (plain c mem)
    constructor
    · rw [← flat]
      refine enclosed.operates Nat.two_pos writable operation nonemptyDigits plain noDivision ?_
      have whole := Text.trim_append_append (s := ['(']) rfl (by simp) trimmedDigits nonemptyDigits
        (s ++ [')', operation.sign])
      simpa using whole
    · intro term single few
      obtain ⟨w, closed, rfl, room, yields, rfl⟩ := means.exists_yields trimmed single few
      rw [isWritable_flatten] at writable
      exact yields.operates room writable operation nonemptyDigits plain noDivision
        (Text.trim_append_append trimmed nonempty trimmedDigits nonemptyDigits [operation.sign])

/-- In `2dkh+3d!` the plus sign stands between a selection without a threshold and a number of
dice, and in `2dkh+3` between the same selection and a number that is added. -/
theorem adds_and_operates_of_kept_dice :
    let shop : Workshop := ⟨some ['6'], 100, false⟩
    let s := ['2', 'd', 'k', 'h']
    let t := ['3', 'd', '!']
    let one : Node Unit :=
      .selection () .keepHighest 1 () [.die () (.sided 6), .die () (.sided 6)]
    let two : Node Unit := .explosion () ⟨.equal, 1, 100⟩
      (.pool () [.die () (.sided 6), .die () (.sided 6), .die () (.sided 6)])
    ((shop.build s).result = .ok one ∧ Text.trim s = s ∧ s ≠ []) ∧
      ((shop.build t).result = .ok two ∧ Text.trim t = t ∧ t ≠ []) ∧
      shop.Adds ['2', 'd', 'k', 'h', '+', '3', 'd', '!'] one two ∧
      (shop.build ['(', '2', 'd', 'k', 'h', ')']).result = .ok one ∧
      shop.Operates ['(', '2', 'd', 'k', 'h', ')'] .add ['3'] one ∧
      shop.Operates ['2', 'd', 'k', 'h'] .add ['3'] one := by
  intro shop s t one two
  have built : (shop.build s).result = .ok one :=
    shop.build_eq_ok.mpr ⟨_, rfl, rfl, by decide⟩
  have builtToo : (shop.build t).result = .ok two :=
    shop.build_eq_ok.mpr ⟨_, rfl, rfl, by decide⟩
  have trimmed : Text.trim s = s ∧ Text.trim t = t := ⟨rfl, rfl⟩
  obtain ⟨adds, enclosed, operates⟩ :=
    adds_and_operates_of_build built trimmed.1 (by simp [s]) builtToo trimmed.2 (by simp [t])
  have plain : ∀ c ∈ ['3'], Text.isPlainDigit c = true := by
    intro c mem
    obtain rfl := List.mem_singleton.mp mem
    rfl
  obtain ⟨outside, inside⟩ := operates .add ['3'] (by simp) plain (by decide)
  exact ⟨⟨built, trimmed.1, by simp [s]⟩, ⟨builtToo, trimmed.2, by simp [t]⟩, adds, enclosed,
    outside, inside (.dice ['D', '6'] 2 [⟨.dropKeep, ['K', 'H'], 1⟩]) rfl (by decide)⟩

/-- Behind `(d6)` no number can be added that is written with more digits than can be converted,
although all but the last of them are zeros. -/
theorem long_operand_is_not_added :
    let shop : Workshop := ⟨some ['6'], 100, false⟩
    let s := ['d', '6']
    let digits := List.replicate Numeral.digitLimit '0' ++ ['1']
    (∃ node, (shop.build s).result = .ok node) ∧ Text.trim s = s ∧ s ≠ [] ∧ digits ≠ [] ∧
      (∀ c ∈ digits, Text.isPlainDigit c = true) ∧
      (shop.build ('(' :: s ++ [')'] ++ '+' :: digits)).result = .error .unconvertedNumber := by
  intro shop s digits
  have built : (shop.build s).result = .ok (.die () (.sided 6)) :=
    shop.build_eq_ok.mpr ⟨_, rfl, rfl, by decide⟩
  have nonempty : digits ≠ [] := by simp [digits]
  have plain : ∀ c ∈ digits, Text.isPlainDigit c = true := Numeral.isPlainDigit_of_mem_padded
  have trimmed : Text.trim digits = digits :=
    Text.trimBy_of_all fun c mem => Text.isBlank_of_isPlainDigit (plain c mem)
  obtain ⟨means, -⟩ := means_of_build built rfl (by simp [s])
  obtain ⟨written, text, same, -⟩ := exists_operation .add nonempty plain
  have refused := means.yields.refused Nat.two_pos written
    (by rw [same]; exact Nat.lt_of_not_le Numeral.not_length_padded_le) (by
      rw [text]
      exact Text.trim_append_append (s := ['(']) rfl (by simp) trimmed nonempty (s ++ [')', '+']))
  rw [text] at refused
  exact ⟨⟨_, built⟩, rfl, by simp [s], nonempty, plain, refused⟩

/-- Powers do not come before sums: `d+3^2` squares the sum. -/
example : ((⟨some ['6'], 100, false⟩ : Workshop).build ['d', '+', '3', '^', '2']).result =
    .ok (.arithmetic () .power 2 (.arithmetic () .add 3 (.pool () [.die () (.sided 6)]))) :=
  build_eq_ok _ |>.mpr ⟨_, rfl, rfl, by decide⟩

end Workshop

end DicePool
