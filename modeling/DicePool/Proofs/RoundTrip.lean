/-
Module: DicePool.Proofs.RoundTrip
Purpose: What is built from the text of a built node is that node again.
Main exports: Workshop.enclosed, Workshop.Yields.operated, Workshop.Yields.exploded,
  Workshop.Yields.selected, Workshop.Retold, Workshop.retold_of_assembled, Workshop.build_spelling
-/
import DicePool.Proofs.Building

/-!
The text of a node is followed from the inside to the outside.  What is written of a node
is mostly one part, at whose end there are the node's own modifiers.  As long as there is
room, further modifiers go to this end (`Yields`), and where there is none, the text is put
in parentheses and begins a new part.  Only the text of a pool with several shares is no
part but a whole expression, one part for each share (`Means`).

Which of the two it is depends on the sort of the node: `Retold`.  Beside the text, each
case says what the text is built into, and that this mirrors the node.
-/

namespace DicePool.Workshop

open Node Reading

variable {shop : Workshop}

/-! ### Dice -/

/-- So many equal dice are a part without modifiers. -/
theorem yields_dice {d : Die} (checked : d.Checked) (writable : d.IsWritable) {count : Nat}
    (positive : 1 ≤ count) (counted : Numeral.isWritable count = true) :
    shop.Yields ⟨Share.spelling ⟨d.spelling, true, count⟩, false, 0⟩
      (Node.pool () (List.replicate count (die () d))) := by
  obtain ⟨face, spelled, upper⟩ := d.exists_face_text
  have stemmed : ∀ (quantity : Option Digits) (s : Text), NumberConverts quantity →
      number 1 quantity = count → s = Reading.written Run.text quantity ++ d.spelling →
      shop.Stem (Part.dice quantity ⟨'D', by simp⟩ (some face)) s
        (Node.pool () (List.replicate count (die () d))) := by
    rintro quantity s short same rfl
    rw [spelled]
    refine stem_dice (.inl rfl) short (dice_eq_ok.mpr ⟨d, count, ?_, positive, by rw [same], rfl⟩)
    rw [← Die.read_spelling checked writable, spelled, Option.map_some, Option.getD_some, upper]
  -- A single die has no count before it.
  by_cases single : count = 1
  · refine (stemmed none _ (by simp [NumberConverts]) single.symm ?_).yields
    simp [Share.spelling, single, Reading.written]
  · refine (stemmed (some (numeral count)) _ (numberConverts_numeral counted) ?_ ?_).yields
    · simp [number, numeral]
    · simp [Share.spelling, single, Reading.written, numeral]

/-! ### Written modifiers -/

theorem exists_selection (s : Selection) {threshold : Nat}
    (counted : Numeral.isWritable threshold = true) :
    ∃ algorithm : Algorithm, ∃ operator : Text, NumberConverts algorithm.threshold ∧
      algorithm.text = s.spelling ++ Numeral.ofNat threshold ∧
      algorithm.modifier = ⟨.dropKeep, operator, threshold⟩ ∧
      Selection.ofText? (Text.upper operator) = some s := by
  have written : ∀ letters : SelectionMark, [letters.action.char, letters.rank.char] = s.spelling →
      Selection.ofText? (Text.upper (Text.upper s.spelling)) = some s →
      ∃ algorithm : Algorithm, ∃ operator : Text, NumberConverts algorithm.threshold ∧
        algorithm.text = s.spelling ++ Numeral.ofNat threshold ∧
        algorithm.modifier = ⟨.dropKeep, operator, threshold⟩ ∧
        Selection.ofText? (Text.upper operator) = some s := by
    intro letters same found
    refine ⟨⟨.select letters, some (numeral threshold)⟩, Text.upper s.spelling,
      numberConverts_numeral counted, ?_, ?_, found⟩
    · simp [Algorithm.text, Mark.text, ← same, Reading.written, numeral]
    · simp [Algorithm.modifier, ← same, number, numeral]
  cases s with
  | dropHighest => exact written ⟨⟨'D', by simp⟩, ⟨'H', by simp⟩⟩ rfl rfl
  | dropLowest => exact written ⟨⟨'D', by simp⟩, ⟨'L', by simp⟩⟩ rfl rfl
  | keepHighest => exact written ⟨⟨'K', by simp⟩, ⟨'H', by simp⟩⟩ rfl rfl
  | keepLowest => exact written ⟨⟨'K', by simp⟩, ⟨'L', by simp⟩⟩ rfl rfl

theorem exists_explosion (comparison : Comparison) {threshold : Nat} (limit : Nat)
    (counted : Numeral.isWritable threshold = true) :
    ∃ algorithm : Algorithm, NumberConverts algorithm.threshold ∧
      algorithm.text = Explosion.spelling ⟨comparison, threshold, limit⟩ ∧
      algorithm.modifier = ⟨.explode, [comparison.sign], threshold⟩ := by
  have isSign : comparison.sign ∈ ['<', '>', '='] := by
    cases comparison <;> simp [Comparison.sign]
  unfold Explosion.spelling
  split
  · next bare =>
      obtain ⟨rfl, one⟩ := bare
      refine ⟨⟨.explode none, none⟩, by simp [NumberConverts], rfl, ?_⟩
      simp [Algorithm.modifier, number, Comparison.sign, ← one]
  · refine ⟨⟨.explode (some ⟨comparison.sign, isSign⟩), some (numeral threshold)⟩,
      numberConverts_numeral counted, ?_, ?_⟩
    · rfl
    · simp [Algorithm.modifier, number, numeral]

/-! ### Modified parts -/

/-- The text of a node, in parentheses if `wraps`, and what then stands at its end. -/
def enclosed (wraps : Bool) (w : Written) : Written :=
  if wraps then ⟨'(' :: w.text ++ [')'], false, 0⟩ else w

theorem plus_notMem_of_not_wrapsForOperation {w : Written} (room : w.wrapsForOperation = false) :
    '+' ∉ w.text := by
  simp only [Written.wrapsForOperation, Bool.or_eq_false_iff] at room
  simpa using room.1

theorem plus_notMem_of_not_wrapsForAlgorithm {w : Written} (room : w.wrapsForAlgorithm = false) :
    '+' ∉ w.text := by
  simp only [Written.wrapsForAlgorithm, Bool.or_eq_false_iff] at room
  simpa using room.1.1

/-- The end of a written node after an operation. -/
theorem Yields.operated {w : Written} {node : Node Unit}
    (yields : shop.Yields (enclosed w.wrapsForOperation w) node) (operation : DicePool.Operation)
    {value : Nat} (noDivision : ¬(operation = .divide ∧ value = 0))
    (counted : Numeral.isWritable value = true) :
    shop.Yields (w.operate operation value) (Node.arithmetic () operation value node) := by
  obtain ⟨written, text, digits, modifier⟩ :=
    exists_operation operation (Numeral.ofNat_ne_nil value)
    fun _ => Numeral.isPlainDigit_of_mem_ofNat
  rw [Numeral.natOfPlain_ofNat] at modifier
  have short : written.digits.text.length ≤ Numeral.digitLimit := by
    rw [digits]
    exact Numeral.isWritable_natCast.mp counted
  have made : (shop.modify node written.modifier).result =
      .ok (Node.arithmetic () operation value node) := by
    rw [modifier]
    exact modify_operation operation noDivision node
  rw [Written.operate]
  cases wraps : w.wrapsForOperation with
  | true =>
      rw [wraps] at yields
      have operated := yields.operate Nat.two_pos written short made
      rw [text] at operated
      exact operated
  | false =>
      rw [wraps] at yields
      have few : w.operations < 2 := by
        simp only [Written.wrapsForOperation, Bool.or_eq_false_iff] at wraps
        simpa using wraps.2
      have operated := yields.operate few written short made
      rw [text] at operated
      exact operated

/-- The end of a written node after a selection or an explosion. -/
theorem Yields.treated {w : Written} {node modified : Node Unit} {algorithm : Algorithm}
    (yields : shop.Yields (enclosed w.wrapsForAlgorithm w) node)
    (converts : NumberConverts algorithm.threshold)
    (made : (shop.modify node algorithm.modifier).result = .ok modified) :
    shop.Yields (w.treat algorithm.text) modified := by
  rw [Written.treat]
  cases wraps : w.wrapsForAlgorithm with
  | true =>
      rw [wraps] at yields
      exact yields.treat rfl rfl algorithm converts made
  | false =>
      rw [wraps] at yields
      simp only [Written.wrapsForAlgorithm, Bool.or_eq_false_iff, decide_eq_false_iff_not] at wraps
      exact yields.treat wraps.1.2 (Nat.eq_zero_of_not_pos wraps.2) algorithm converts made

/-- The limit of an explosion is not written, and the workshop has its own. -/
theorem Yields.exploded {w : Written} {node : Node Unit}
    (yields : shop.Yields (enclosed w.wrapsForAlgorithm w) node) {comparison : Comparison}
    {threshold : Nat} (limit : Nat) (counted : Numeral.isWritable threshold = true)
    (checked : ∀ sub ∈ node.subtrees, sub.Checked) (possible : 0 ≤ shop.limit)
    (explodes : node.Explodes ⟨comparison, threshold, shop.limit.toNat⟩) :
    shop.Yields (w.treat (Explosion.spelling ⟨comparison, threshold, limit⟩))
      (Node.explosion () ⟨comparison, threshold, shop.limit.toNat⟩ node) := by
  obtain ⟨algorithm, converts, text, modifier⟩ := exists_explosion comparison limit counted
  rw [← text]
  refine yields.treated converts ?_
  rw [modifier]
  refine (explosion?_eq_ok_iff_explodes checked).mpr ⟨comparison, ?_, possible, explodes, rfl⟩
  cases comparison <;> rfl

theorem Yields.selected {w : Written} {items : List (Node Unit)}
    (yields : shop.Yields (enclosed w.wrapsForAlgorithm w) (Node.pool () items)) {s : Selection}
    {threshold : Nat} (counted : Numeral.isWritable threshold = true) (positive : 1 ≤ threshold)
    (fits : s.fits threshold items.length = true) :
    shop.Yields (w.treat (s.spelling ++ Numeral.ofNat threshold))
      (Node.selection () s threshold () items) := by
  obtain ⟨algorithm, operator, converts, text, modifier, found⟩ := exists_selection s counted
  rw [← text]
  refine yields.treated converts ?_
  rw [modifier]
  exact selection?_eq_ok.mpr ⟨s, (), items, found, rfl, s.ne_nil_of_fits positive fits,
    Int.ofNat_le.mpr positive, fits, rfl⟩

/-! ### Sorts of nodes -/

/-- What is read back of the text of a node. Only modified nodes and pools are looked at
further; dice are their own text. -/
inductive Retold (shop : Workshop) : Node Unit → Prop where
  | die {d : Die} (checked : d.Checked) (writable : d.IsWritable) : Retold shop (die () d)
  | dice {d : Die} {count : Nat} (checked : d.Checked) (writable : d.IsWritable)
      (positive : 1 ≤ count) (counted : Numeral.isWritable count = true) :
      Retold shop (Node.pool () (List.replicate count (.die () d)))
  /-- A pool with several shares. -/
  | sum {items items' : List (Node Unit)} (plus : '+' ∈ (Node.pool () items).spelling)
      (means : shop.Means (Node.pool () items).spelling (Node.pool () items'))
      (mirrors : MirrorsEach items items')
      (several : ∃ first next rest,
        Reading.text ⟨first, next :: rest⟩ = (Node.pool () items).spelling) :
      Retold shop (Node.pool () items)
  | modified {node again : Node Unit} (sort : node.inner?.isSome = true)
      (sameSort : again.inner?.isSome = true) (yields : shop.Yields node.written again)
      (mirrors : Mirrors node again) : Retold shop node

theorem mirrorsEach_dice (d : Die) (count : Nat) :
    MirrorsEach (List.replicate count (die () d)) (List.replicate count (die () d)) where
  shares := rfl
  each := by
    refine ⟨_, List.Perm.refl _, List.forall₂_same.mpr fun item mem => ?_⟩
    rw [List.eq_of_mem_replicate mem]
    exact mirrors_die d () ()

theorem written_dice (d : Die) {count : Nat} (positive : 1 ≤ count) :
    (Node.pool () (List.replicate count (die () d))).written =
      ⟨Share.spelling ⟨d.spelling, true, count⟩, false, 0⟩ := by
  obtain ⟨more, rfl⟩ := Nat.exists_eq_add_of_le' positive
  cases more with
  | zero => exact (written_flatten (Node.pool () [.die () d])).symm
  | succ more =>
      have shared : Share.ofItems ((List.replicate (more + 2) (Node.die () d)).map key) =
          [⟨d.spelling, true, more + 2⟩] := by
        rw [List.map_replicate]
        exact Share.foldr_add_replicate (fun _ mem => absurd mem List.not_mem_nil) (more + 1)
      have text := spelling_pool shared (by simp) ()
      rw [List.map_singleton, Text.join] at text
      rw [← text]
      rfl

/-- The text of dice has no plus sign. -/
theorem plus_notMem_dice (d : Die) (count : Nat) :
    '+' ∉ Share.spelling ⟨d.spelling, true, count⟩ := by
  have made : Text.MadeOf Die.marks (Share.spelling ⟨d.spelling, true, count⟩) := by
    unfold Share.spelling
    split
    · exact d.madeOf_spelling
    · exact (Numeral.madeOf_ofNat Die.marks count).append d.madeOf_spelling
  exact made.notMem (by decide) (by decide)

/-- Dice need no parentheses before a selection or an explosion. -/
theorem enclosed_dice (d : Die) (count : Nat) :
    let w : Written := ⟨Share.spelling ⟨d.spelling, true, count⟩, false, 0⟩
    enclosed w.wrapsForAlgorithm w = w := by
  simp [enclosed, Written.wrapsForAlgorithm, plus_notMem_dice d count]

/-- A single die needs no count. -/
theorem yields_die {d : Die} (checked : d.Checked) (writable : d.IsWritable) :
    shop.Yields ⟨d.spelling, false, 0⟩ (Node.pool () [die () d]) :=
  yields_dice checked writable (le_refl 1) (by decide)

theorem loneDie_dice (d : Die) (count : Nat) :
    (Node.pool () (List.replicate count (die () d))).LoneDie := by
  intro slot item same
  have mem : item ∈ List.replicate count (die () d) := by
    rw [(Node.pool.inj same).2]
    exact List.mem_cons_self
  rw [List.eq_of_mem_replicate mem]
  rfl

theorem loneDie_of_inner {node : Node Unit} (sort : node.inner?.isSome = true) : node.LoneDie := by
  rintro slot item rfl
  contradiction

/-- The text of every sort is the text of an expression. -/
theorem Retold.exists_means {node : Node Unit} (retold : Retold shop node) :
    ∃ again, shop.Means node.spelling again ∧ Mirrors node again := by
  cases retold with
  | @die d checked writable =>
      exact ⟨.die () d, (yields_die checked writable).means, mirrors_die d () ()⟩
  | @dice d count checked writable positive counted =>
      have yields : shop.Yields _ _ := yields_dice checked writable positive counted
      rw [← written_dice d positive] at yields
      exact ⟨_, yields.means, (mirrors_flatten (loneDie_dice d count)).mpr
        (Mirrors.pool (mirrorsEach_dice d count) () ())⟩
  | sum plus means mirrors _ => exact ⟨_, means, Mirrors.pool mirrors () ()⟩
  | modified sort sameSort yields mirrors =>
      exact ⟨_, yields.means, (mirrors_flatten (loneDie_of_inner sameSort)).mpr mirrors⟩

/-! ### Modified nodes -/

/-- A modifier puts in parentheses what is no part, and finds a part before it. -/
theorem Retold.exists_enclosed {node : Node Unit} (retold : Retold shop node) (wraps : Bool)
    (noPlus : wraps = false → '+' ∉ node.spelling) :
    ∃ again, shop.Yields (enclosed wraps node.written) again ∧ Mirrors node again := by
  cases wraps with
  | true =>
      obtain ⟨again, means, mirrors⟩ := retold.exists_means
      exact ⟨again, means.yields, mirrors⟩
  | false =>
      cases retold with
      | @die d checked writable =>
          exact ⟨_, yields_die checked writable,
            (mirrors_flatten (loneDie_dice d 1)).mp (mirrors_die d () ())⟩
      | @dice d count checked writable positive counted =>
          have yields : shop.Yields _ _ := yields_dice checked writable positive counted
          rw [← written_dice d positive] at yields
          exact ⟨_, yields, Mirrors.pool (mirrorsEach_dice d count) () ()⟩
      | sum plus means mirrors _ => exact absurd plus (noPlus rfl)
      | modified sort sameSort yields mirrors => exact ⟨_, yields, mirrors⟩

/-- What a selection finds before it is a pool again. -/
theorem Retold.exists_enclosed_pool {items : List (Node Unit)}
    (retold : Retold shop (Node.pool () items)) :
    ∃ items', MirrorsEach items items' ∧
      shop.Yields (enclosed (Node.pool () items).written.wrapsForAlgorithm
        (Node.pool () items).written) (Node.pool () items') := by
  generalize pooled : Node.pool () items = node at retold
  cases retold with
  | die checked writable => contradiction
  | @dice d count checked writable positive counted =>
      cases pooled
      refine ⟨_, mirrorsEach_dice d count, ?_⟩
      rw [written_dice d positive, enclosed_dice]
      exact yields_dice checked writable positive counted
  | sum plus means mirrors _ =>
      cases pooled
      refine ⟨_, mirrors, ?_⟩
      have wraps : (Node.pool () items).written.wrapsForAlgorithm = true := by
        have contains : (Node.pool () items).written.text.contains '+' = true := by
          simpa [Node.spelling] using plus
        rw [Written.wrapsForAlgorithm, contains, Bool.true_or, Bool.true_or]
      rw [wraps]
      exact means.yields
  | modified sort sameSort yields mirrors =>
      rw [← pooled] at sort
      contradiction

theorem Retold.arithmetic {inner : Node Unit} (retold : Retold shop inner)
    (operation : DicePool.Operation) {value : Nat}
    (noDivision : ¬(operation = .divide ∧ value = 0))
    (counted : Numeral.isWritable value = true) :
    Retold shop (Node.arithmetic () operation value inner) := by
  obtain ⟨again, yields, mirrors⟩ :=
    retold.exists_enclosed inner.written.wrapsForOperation plus_notMem_of_not_wrapsForOperation
  refine .modified rfl rfl ?_ (mirrors.arithmetic () () operation value)
  rw [Node.written]
  exact yields.operated operation noDivision counted

theorem Retold.explosion {inner : Node Unit} (retold : Retold shop inner)
    (comparison : Comparison) {threshold : Nat} (counted : Numeral.isWritable threshold = true)
    (possible : 0 ≤ shop.limit)
    (explodes : inner.Explodes ⟨comparison, threshold, shop.limit.toNat⟩) :
    Retold shop (Node.explosion () ⟨comparison, threshold, shop.limit.toNat⟩ inner) := by
  obtain ⟨again, yields, mirrors⟩ :=
    retold.exists_enclosed inner.written.wrapsForAlgorithm plus_notMem_of_not_wrapsForAlgorithm
  refine .modified rfl rfl ?_ (mirrors.explosion () () _)
  rw [Node.written]
  exact yields.exploded _ counted yields.assembled.checked possible
    ⟨mirrors.reports explodes.reports, explodes.suits.of_perm mirrors.ranges _⟩

theorem Retold.selection {items : List (Node Unit)} (retold : Retold shop (Node.pool () items))
    (s : Selection) {threshold : Nat} (counted : Numeral.isWritable threshold = true)
    (positive : 1 ≤ threshold) (fits : s.fits threshold items.length = true) :
    Retold shop (Node.selection () s threshold () items) := by
  obtain ⟨items', mirrors, yields⟩ := retold.exists_enclosed_pool
  refine .modified rfl rfl ?_ (Mirrors.selection mirrors () () s threshold () ())
  have pooled : (Node.pool () items).written = Written.pool (writtenEach items) := by
    rw [Node.written]
  rw [Node.written, ← pooled]
  exact yields.selected counted positive (by rwa [mirrors.length])

/-! ### Pools -/

theorem joined_eq_join (first : Part) (rest : List Part) :
    first.text ++ Part.joined rest = Text.join ['+'] ((first :: rest).map Part.text) := by
  induction rest generalizing first with
  | nil => simp [Part.joined, Text.join]
  | cons next rest ih =>
      rw [Part.joined, List.map_cons, List.map_cons, Text.join, ← List.map_cons, ← ih]
      simp

theorem not_isDie_of_inner {node : Node Unit} (sort : node.inner?.isSome = true) :
    node.isDie = false ∧ node.isPool = false := by
  cases node with
  | die slot d => contradiction
  | pool slot items => contradiction
  | _ => exact ⟨rfl, rfl⟩

/-- A bundle is written as a part, and this part is built into such a bundle. -/
theorem exists_part_of_bundle {bundle : Bundle (Node Unit)} (retold : Retold shop bundle.item)
    (noPool : bundle.item.isPool = false) (positive : 1 ≤ bundle.count)
    (counted : Numeral.isWritable bundle.count = true)
    (alone : bundle.item.isDie = false → bundle.count = 1) :
    ∃ (part : Part) (node again : Node Unit), part.text = (bundle.share key).spelling ∧
      part.Converts shop.defaultFace ∧
      (shop.term (part.term shop.face)).result = .ok node ∧
      node.poured = List.replicate bundle.count again ∧ key again = key bundle.item ∧
      Mirrors bundle.item again := by
  obtain ⟨item, count⟩ := bundle
  cases retold with
  | @die d checked writable =>
      have yields : shop.Yields _ _ := yields_dice checked writable positive counted
      obtain ⟨part, text, converts, made⟩ := yields.exists_part
      refine ⟨part, _, .die () d, text, converts, made, ?_, rfl, mirrors_die d () ()⟩
      match count, positive with
      | 1, _ => rfl
      | more + 2, _ => rfl
  | dice checked writable _ _ => contradiction
  | sum plus means mirrors _ => contradiction
  | @modified _ again sort sameSort yields mirrors =>
      obtain ⟨notDie, -⟩ := not_isDie_of_inner sort
      obtain ⟨notDieToo, noPoolToo⟩ := not_isDie_of_inner sameSort
      obtain rfl : count = 1 := alone notDie
      obtain ⟨part, text, converts, made⟩ := yields.exists_part
      refine ⟨part, _, again, text, converts, made, ?_, ?_, mirrors⟩
      · rw [flatten_of_not_isPool noPoolToo, poured_of_not_isPool noPoolToo]
        rfl
      · rw [key, key, Node.spelling, Node.spelling, mirrors.written, notDie, notDieToo]

theorem mirrors_replicate {item again : Node Unit} (mirrors : Mirrors item again)
    (count : Nat) :
    List.Forall₂ Mirrors (List.replicate count item) (List.replicate count again) := by
  induction count with
  | zero => exact .nil
  | succ count ih => exact .cons mirrors ih

/-- Bundles are written as parts, and these are built into the items of such bundles. -/
theorem exists_parts_of_bundles {bundles : List (Bundle (Node Unit))}
    (retold : ∀ bundle ∈ bundles, Retold shop bundle.item ∧ bundle.item.isPool = false)
    (tidy : Share.Tidy (bundles.map (Bundle.share key)))
    (counted : ∀ bundle ∈ bundles, Numeral.isWritable bundle.count = true) :
    ∃ (parts : List Part) (nodes : List (Node Unit)) (again : List (Bundle (Node Unit))),
      parts.map Part.text = (bundles.map (Bundle.share key)).map Share.spelling ∧
      Part.ConvertsEach shop.defaultFace parts ∧
      (shop.terms (Part.terms shop.face parts)).result = .ok nodes ∧
      nodes.flatMap Node.poured = Bundle.expand again ∧
      again.map (Bundle.share key) = bundles.map (Bundle.share key) ∧
      List.Forall₂ Mirrors (Bundle.expand bundles) (Bundle.expand again) := by
  induction bundles with
  | nil => exact ⟨[], [], [], rfl, trivial, rfl, rfl, rfl, .nil⟩
  | cons bundle rest ih =>
      obtain ⟨positive, alone, apart⟩ := tidy
      obtain ⟨parts, nodes, again, texts, convertEach, termed, poured, shares, each⟩ :=
        ih (fun bundle mem => retold bundle (List.mem_cons_of_mem _ mem))
          ⟨fun share mem => positive share (List.mem_cons_of_mem _ mem),
            fun share mem => alone share (List.mem_cons_of_mem _ mem), apart.of_cons⟩
          (fun bundle mem => counted bundle (List.mem_cons_of_mem _ mem))
      have own := retold bundle List.mem_cons_self
      obtain ⟨part, node, item, text, converts, made, pouredFirst, keys, mirrors⟩ :=
        exists_part_of_bundle own.1 own.2 (positive _ List.mem_cons_self)
          (counted _ List.mem_cons_self) (alone _ List.mem_cons_self)
      refine ⟨part :: parts, node :: nodes, ⟨item, bundle.count⟩ :: again, ?_,
        ⟨converts, convertEach⟩, ?_, ?_, ?_, ?_⟩
      · simp only [List.map_cons, text, texts]
      · apply Assembly.result_bind_ok made
        exact Assembly.result_bind_ok termed rfl
      · rw [List.flatMap_cons, pouredFirst, poured, Bundle.expand_cons]
        rfl
      · rw [List.map_cons, List.map_cons, shares, Bundle.share, Bundle.share, keys]
      · rw [Bundle.expand_cons, Bundle.expand_cons, Bundle.items, Bundle.items]
        exact List.rel_append (mirrors_replicate mirrors _) each

/-- A pool in at least two shares is read back as an expression with a part for each. -/
theorem retold_of_bundles {items : List (Node Unit)} {one two : Bundle (Node Unit)}
    {rest : List (Bundle (Node Unit))}
    (shares : Share.ofItems (items.map key) = (one :: two :: rest).map (Bundle.share key))
    (perm : items.Perm (Bundle.expand (one :: two :: rest)))
    (counted : ∀ bundle ∈ one :: two :: rest, Numeral.isWritable bundle.count = true)
    (retold : ∀ bundle ∈ one :: two :: rest,
      Retold shop bundle.item ∧ bundle.item.isPool = false) :
    Retold shop (Node.pool () items) := by
  have tidy := Share.tidy_ofItems (items.map key)
  rw [shares] at tidy
  obtain ⟨parts, nodes, again, texts, converts, termed, poured, sameShares, each⟩ :=
    exists_parts_of_bundles retold tidy counted
  have mirrors : MirrorsEach items (Bundle.expand again) := by
    refine ⟨?_, _, perm, each⟩
    rw [Bundle.ofItems_expand (sameShares ▸ tidy), sameShares, shares]
  have several : 2 ≤ (Bundle.expand again).length := by
    have first := tidy.counted (one.share key) (by simp)
    have second := tidy.counted (two.share key) (by simp)
    simp only [Bundle.share] at first second
    rw [← each.length_eq, Bundle.expand_cons, Bundle.expand_cons, List.length_append,
      List.length_append, Bundle.items, Bundle.items, List.length_replicate,
      List.length_replicate]
    omega
  have gathered : gather nodes = Node.pool () (Bundle.expand again) := by
    rw [gather, poured, flatten_pool () (Nat.ne_of_gt several)]
  have text : (Node.pool () items).spelling = Text.join ['+'] (parts.map Part.text) := by
    rw [spelling_pool shares (by simp) (), texts]
  obtain ⟨first, others, rfl, -, texts⟩ := List.map_eq_cons_iff.mp texts
  obtain ⟨next, others, rfl, -, -⟩ := List.map_eq_cons_iff.mp texts
  rw [← joined_eq_join] at text
  refine .sum ?_ ⟨⟨first, next :: others⟩, text.symm, converts, ?_⟩ mirrors
    ⟨first, next, others, text.symm⟩
  · rw [text]
    simp [Part.joined]
  · rw [← gathered]
    exact Assembly.result_bind_ok termed rfl

theorem retold_pool {items : List (Node Unit)}
    (assembled : ∀ item ∈ items, item.Assembled shop.limit)
    (retold : ∀ item ∈ items, Retold shop item) (noPool : ∀ item ∈ items, item.isPool = false)
    (several : (∃ d, items = [.die () d]) ∨ 2 ≤ items.length)
    (writable : (Node.pool () items).isWritable = true) :
    Retold shop (Node.pool () items) := by
  rw [isWritable_pool, Bool.and_eq_true, List.all_eq_true, List.all_eq_true] at writable
  obtain ⟨countsFit, itemsFit⟩ := writable
  have known : ∀ one ∈ items, ∀ two ∈ items, (key one).1 = true → key one = key two →
      one = two := by
    intro one oneMem two twoMem
    exact (assembled one oneMem).eq_of_key_eq (assembled two twoMem)
  obtain ⟨bundles, shares, perm⟩ := Bundle.exists_of_items items known
  have tidy := Share.tidy_ofItems (items.map key)
  rw [shares] at tidy
  have inItems : ∀ bundle ∈ bundles, bundle.item ∈ items := by
    intro bundle mem
    exact perm.mem_iff.mpr (Bundle.item_mem_expand tidy mem)
  have counted : ∀ bundle ∈ bundles, Numeral.isWritable bundle.count = true := by
    intro bundle mem
    apply countsFit
    rw [counts, map_writtenEach, shares, List.map_map]
    exact List.mem_map_of_mem mem
  cases bundles with
  | nil =>
      obtain rfl : items = [] := perm.eq_nil
      rcases several with ⟨d, empty⟩ | few
      · contradiction
      · contradiction
  | cons bundle others =>
      cases others with
      | nil =>
          obtain ⟨item, count⟩ := bundle
          have positive : 1 ≤ count := tidy.counted _ List.mem_cons_self
          obtain rfl : items = List.replicate count item := by
            simpa [Bundle.items, List.perm_replicate] using perm
          cases sort : item.isDie with
          | true =>
              obtain ⟨d, rfl, checked⟩ :=
                (assembled item (inItems _ List.mem_cons_self)).exists_die sort
              exact .dice checked (isWritable_die.mp (itemsFit _ (inItems _ List.mem_cons_self)))
                positive (counted _ List.mem_cons_self)
          | false =>
              -- Only a die may be the only item of a pool.
              obtain rfl : count = 1 := tidy.alone _ List.mem_cons_self sort
              rcases several with ⟨d, single⟩ | few
              · cases single
                contradiction
              · contradiction
      | cons next rest =>
          exact retold_of_bundles shares perm counted fun bundle mem =>
            ⟨retold _ (inItems bundle mem), noPool _ (inItems bundle mem)⟩

/-- Every assembled node is read back that can be written. -/
theorem retold_of_assembled {node : Node Unit} (assembled : node.Assembled shop.limit)
    (writable : node.isWritable = true) : Retold shop node := by
  induction assembled with
  | die checked => exact .die checked (isWritable_die.mp writable)
  | pool each noPool several ih =>
      have itemsFit := writable
      rw [isWritable_pool, Bool.and_eq_true, List.all_eq_true (p := isWritable)] at itemsFit
      exact retold_pool each (fun item mem => ih item mem (itemsFit.2 item mem)) noPool several
        writable
  | arithmetic operation value _ noDivision ih =>
      rw [isWritable_arithmetic, Bool.and_eq_true] at writable
      exact (ih writable.2).arithmetic operation noDivision writable.1
  | selection s threshold _ positive fits ih =>
      rw [isWritable_selection, Bool.and_eq_true] at writable
      exact (ih writable.2).selection s writable.1 positive fits
  | explosion comparison threshold _ possible explodes ih =>
      rw [isWritable_explosion, Bool.and_eq_true] at writable
      exact (ih writable.2).explosion comparison writable.1 possible explodes

/-! ### Round trip -/

/-- Trees that mirror each other report the same bounds. -/
theorem reported_of_mirrors {one two : Node Unit} (mirrors : Mirrors one two)
    (checked : ∀ sub ∈ one.subtrees, sub.Checked) (checkedToo : ∀ sub ∈ two.subtrees, sub.Checked)
    (side : Extreme) : two.reported side = one.reported side := by
  rw [reported_eq checked, reported_eq checkedToo, mirrors.reported, mirrors.extreme]

/-- The text of a node that was built is built as well, into a node with the same text, the
same bounds and the same tree, but for the order of items and for pools of one. -/
theorem build_spelling {shop : Workshop} {s : Text} {node : Node Unit}
    (built : (shop.build s).result = .ok node) (nonempty : node.isEmptyPool = false) :
    ∃ again, (shop.build node.spelling).result = .ok again ∧
      again.spelling = node.spelling ∧ (∀ side, again.reported side = node.reported side) ∧
      Rearranged node.bared again.bared := by
  rcases shop.assembled_of_build built with empty | assembled
  · rw [nonempty] at empty
    contradiction
  · obtain ⟨-, -, -, writable⟩ := shop.build_eq_ok.mp built
    obtain ⟨again, means, mirrors⟩ := (retold_of_assembled assembled writable).exists_means
    refine ⟨again, means.build node.trim_spelling (mirrors.writable.trans writable), ?_, ?_,
      mirrors.rearranged⟩
    · rw [Node.spelling, Node.spelling, mirrors.written]
    · exact reported_of_mirrors mirrors assembled.checked means.assembled.1.checked

/-- `(D+D8+D)KH2*3` is written `((2D6+D8)KH2)*3`. -/
theorem build_spelling_of_scattered_dice :
    let shop : Workshop := ⟨some ['6'], 100, false⟩
    let s := ['(', 'd', '+', 'd', '8', '+', 'd', ')', 'k', 'h', '2', '*', '3']
    let node : Node Unit := .arithmetic () .multiply 3 (.selection () .keepHighest 2 ()
      [.die () (.sided 6), .die () (.sided 8), .die () (.sided 6)])
    (shop.build s).result = .ok node ∧ node.isEmptyPool = false ∧
      ∃ again, (shop.build node.spelling).result = .ok again ∧
        again.spelling = node.spelling ∧ (∀ side, again.reported side = node.reported side) ∧
        Rearranged node.bared again.bared := by
  intro shop s node
  have built : (shop.build s).result = .ok node :=
    shop.build_eq_ok.mpr ⟨_, rfl, rfl, by decide⟩
  exact ⟨built, rfl, build_spelling built rfl⟩

end DicePool.Workshop
