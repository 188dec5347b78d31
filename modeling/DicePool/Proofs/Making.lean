/-
Module: DicePool.Proofs.Making
Purpose: What a request makes, and what is true of every node that was ever made.
Main exports: Session.Makes, Session.outcome_make, Session.Admits, Session.serves_step,
  Session.Sound, Session.Sound.after, Node.Lawful, Session.nodes_are_lawful
-/
import DicePool.Proofs.Agreeing
import DicePool.Proofs.Canonical
import DicePool.Proofs.Numbering

/-!
A request that makes a node either is refused, and then leaves no node behind, or the node is
one of those that `Session.Makes` lists, with one rule for each recipe (`Session.outcome_make`).
The rules say which nodes are found, what has been checked, and which slots are taken.

So every request leaves the nodes as they are or names one more node (`Session.Serves`).  That
one is put together from nodes that are there and from new ones that pass the checks of their
sort and are in slots that no node was in before (`Session.Admits`).  From this follows what is
true of all nodes after any requests: `Session.Sound.after`, `Session.nodes_are_lawful`.
-/

namespace DicePool

theorem Operation.eq_sign_of_ofText? {operator : Text} {operation : Operation}
    (known : Operation.ofText? operator = some operation) : operator = [operation.sign] := by
  unfold Operation.ofText? at known
  split at known <;> cases known <;> rfl

theorem Selection.eq_spelling_of_ofText? {operator : Text} {s : Selection}
    (known : Selection.ofText? operator = some s) : operator = s.spelling := by
  unfold Selection.ofText? at known
  split at known <;> cases known <;> rfl

theorem Comparison.eq_sign_of_ofText? {comparison : Text} {sign : Comparison}
    (known : Comparison.ofText? comparison = some sign) : comparison = [sign.sign] := by
  unfold Comparison.ofText? at known
  split at known <;> cases known <;> rfl

/-- The name that the request gives to a node. -/
def Request.given : Request → Option String
  | .make name _ _ | .extend name _ _ | .nameInner name _ | .nameChild name _ _ => some name
  | _ => none

namespace Session

open Node

/-! ### What is made -/

/-- The nodes that the session can make by a recipe, with the number of slots that are taken
for them. -/
inductive Makes (session : Session) : Recipe → Node Nat → Nat → Prop where
  | sided {sides : Nat} (enough : 2 ≤ sides) :
      Makes session (.sided sides) (.die session.freshSlot (.sided sides)) 1
  | sidedText {text : Text} {d : Die} (read : Die.readSided text = .ok d) :
      Makes session (.sidedText text) (.die session.freshSlot d) 1
  | fudge : Makes session .fudge (.die session.freshSlot .fudge) 1
  | percentile : Makes session .percentile (.die session.freshSlot .percentile) 1
  | custom {faces : List Int} (enough : 2 ≤ faces.length) :
      Makes session (.custom faces) (.die session.freshSlot (.custom faces)) 1
  | customText {text : Text} {d : Die} (read : Die.readCustom text = .ok d) :
      Makes session (.customText text) (.die session.freshSlot d) 1
  | pool {names : List String} {items : List (Node Nat)}
      (found : session.findAll names = .ok items) :
      Makes session (.pool names) (.ofItems session.freshSlot items) 1
  | repeated {name : String} {item : Node Nat} {copies : Nat}
      (found : session.find name = .ok item) (nonempty : item.isEmptyPool = false) :
      Makes session (.repeated name (copies + 1))
        (.pool (session.freshSlot + copies)
          (item :: (List.range copies).map fun index => item.inSlot (session.freshSlot + index)))
        (copies + 1)
  | repeatedNothing {name : String} {item : Node Nat} {count : Nat}
      (found : session.find name = .ok item) (nothing : item.isEmptyPool = true)
      (positive : 1 ≤ count) :
      Makes session (.repeated name count) (.pool session.freshSlot []) 1
  | arithmetic {name : String} {inner : Node Nat} {operation : Operation} {value : Nat}
      (found : session.find name = .ok inner)
      (noDivision : ¬(operation = .divide ∧ value = 0)) :
      Makes session (.arithmetic name [operation.sign] value)
        (.arithmetic session.freshSlot operation value inner) 1
  | selection {name : String} {operator : Text} {s : Selection} {threshold poolSlot : Nat}
      {items : List (Node Nat)} (found : session.find name = .ok (.pool poolSlot items))
      (upper : Text.upper operator = s.spelling) (positive : 1 ≤ threshold)
      (fits : s.fits threshold items.length = true) :
      Makes session (.selection name operator threshold)
        (.selection session.freshSlot s threshold poolSlot items) 1
  | explosion {name : String} {inner : Node Nat} {comparison : Comparison} {threshold : Int}
      {limit : Nat} {bounds : List (Int × Int)} (found : session.find name = .ok inner)
      (reported : inner.leaves.mapM reportedRange = .ok bounds)
      (suits : (⟨comparison, threshold, limit⟩ : Explosion).Suits bounds) :
      Makes session (.explosion name [comparison.sign] threshold limit)
        (.explosion session.freshSlot ⟨comparison, threshold, limit⟩ inner) 1
  | expression {text : Text} {face : Option Text} {limit : Int} {heard : Bool} {node : Node Unit}
      (built : (Workshop.build ⟨face, limit, heard⟩ text).result = .ok node) :
      Makes session (.expression text face limit) (node.numbered session.freshSlot).1
        ((node.numbered session.freshSlot).2 - session.freshSlot)

/-- The outcome names this node, which takes so many slots, and changes no other node. -/
structure Names (session : Session) (name : String) (node : Node Nat) (taken : Nat)
    (outcome : Session × Answer) : Prop where
  nodes : outcome.1.nodes = (name, node) :: session.nodes
  slots : outcome.1.marks.size = session.marks.size + taken
  answer : outcome.2 = .made node.title node.spelling?

/-- The outcome is a refusal that leaves the nodes and their marks as they are. -/
structure Refuses (session : Session) (outcome : Session × Answer) : Prop where
  nodes : outcome.1.nodes = session.nodes
  marks : outcome.1.marks = session.marks
  answer : ∃ fault, outcome.2 = .refused fault

theorem refuses_self (session : Session) (fault : Fault) :
    session.Refuses (session, .refused fault) :=
  ⟨rfl, rfl, fault, rfl⟩

/-- What a request leaves behind that can only make a node, and of which it says this. -/
def Outcome (session : Session) (name : String) (made : Node Nat → Nat → Prop)
    (outcome : Session × Answer) : Prop :=
  session.Refuses outcome ∨ ∃ node taken, made node taken ∧ session.Names name node taken outcome

section

variable {session : Session} {name : String} {made : Node Nat → Nat → Prop}

theorem outcome_placeNew {mark : Bool} {result : Except Fault (Node Nat)}
    (each : ∀ node, result = .ok node → made node 1) :
    session.Outcome name made (session.placeNew name mark result) := by
  cases result with
  | error fault => exact .inl (refuses_self session fault)
  | ok node => exact .inr ⟨node, 1, each node rfl, rfl, size_withSlots session 1 mark, rfl⟩

/-- What is recorded on the way is no node. -/
theorem Outcome.of_record {α : Type} (entries : List (Entry α)) {outcome : Session × Answer}
    (recorded : (session.record entries).Outcome name made outcome) :
    session.Outcome name made outcome := by
  rcases recorded with ⟨nodes, marks, answer⟩ | ⟨node, taken, made, nodes, slots, answer⟩
  · exact .inl ⟨nodes, marks, answer⟩
  · exact .inr ⟨node, taken, made, nodes, slots, answer⟩

theorem outcome_makeRepeated (mark : Bool) (item : String) (quantity : Int) :
    session.Outcome name (session.Makes (.repeated item quantity))
      (session.makeRepeated name mark item quantity) := by
  unfold Session.makeRepeated
  split
  · exact .inl (refuses_self session _)
  · exact .inl (refuses_self session _)
  · next node count found counted =>
      obtain ⟨positive, rfl⟩ := checkQuantity_eq_ok.mp counted
      right
      cases nothing : node.isEmptyPool with
      | true =>
          refine ⟨_, 1, .repeatedNothing found nothing positive, ?_, ?_, ?_⟩
          all_goals simp [placeNew, place, named, ofItems, nothing, freshSlot, withSlots]
      | false =>
          obtain ⟨copies, rfl⟩ : ∃ copies, count = copies + 1 := ⟨count - 1, by omega⟩
          refine ⟨_, copies + 1, .repeated found nothing, ?_, ?_, ?_⟩
          all_goals
            simp [placeNew, place, named, ofItems, nothing, freshSlot, withSlots, List.filter_map,
              Function.comp_def]

theorem outcome_makeExplosion (mark : Bool) (inner : String) (comparison : Text)
    (threshold limit : Int) :
    session.Outcome name (session.Makes (.explosion inner comparison threshold limit))
      (session.makeExplosion name mark inner comparison threshold limit) := by
  unfold Session.makeExplosion
  split
  · exact .inl (refuses_self session _)
  · next node found =>
      refine Outcome.of_record _ (outcome_placeNew fun made same => ?_)
      obtain ⟨sign, known, nonneg, ⟨bounds, reported, suits⟩, rfl⟩ := explosion?_eq_ok.mp same
      obtain ⟨limit, rfl⟩ := Int.eq_ofNat_of_zero_le nonneg
      rw [Comparison.eq_sign_of_ofText? known]
      exact .explosion found reported suits

theorem outcome_makeExpression (mark : Bool) (text : Text) (face : Option Text) (limit : Int) :
    session.Outcome name (session.Makes (.expression text face limit))
      (session.makeExpression name mark text face limit) := by
  unfold Session.makeExpression
  dsimp only
  split
  · exact .inl ⟨rfl, rfl, _, rfl⟩
  · next node built => exact .inr ⟨_, _, .expression built, rfl, size_withSlots _ _ _, rfl⟩

/-- A request to make a node is refused, or names a node that the recipe allows. -/
theorem outcome_make (mark : Bool) (recipe : Recipe) :
    session.Outcome name (session.Makes recipe) (session.make name mark recipe) := by
  cases recipe with
  | fudge =>
      rw [Session.make]
      refine outcome_placeNew fun node same => ?_
      cases same
      exact .fudge
  | percentile =>
      rw [Session.make]
      refine outcome_placeNew fun node same => ?_
      cases same
      exact .percentile
  | sided sides =>
      refine outcome_placeNew fun node same => ?_
      obtain ⟨d, made, rfl⟩ := except_map_eq_ok.mp same
      obtain ⟨enough, rfl⟩ := Die.withSides_eq_ok.mp made
      obtain ⟨sides, rfl⟩ := Int.eq_ofNat_of_zero_le (Int.le_trans (by decide) enough)
      exact .sided (Int.ofNat_le.mp enough)
  | custom faces =>
      refine outcome_placeNew fun node same => ?_
      obtain ⟨d, made, rfl⟩ := except_map_eq_ok.mp same
      obtain ⟨enough, rfl⟩ := Die.withFaces_eq_ok.mp made
      exact .custom enough
  | sidedText text =>
      refine outcome_placeNew fun node same => ?_
      obtain ⟨d, read, rfl⟩ := except_map_eq_ok.mp same
      exact .sidedText read
  | customText text =>
      refine outcome_placeNew fun node same => ?_
      obtain ⟨d, read, rfl⟩ := except_map_eq_ok.mp same
      exact .customText read
  | pool items =>
      refine outcome_placeNew fun node same => ?_
      obtain ⟨items, found, rfl⟩ := except_map_eq_ok.mp same
      exact .pool found
  | repeated item quantity => exact outcome_makeRepeated mark item quantity
  | arithmetic inner operator value =>
      refine outcome_placeNew fun node same => ?_
      obtain ⟨inner, found, made⟩ := except_bind_eq_ok.mp same
      obtain ⟨operation, known, nonneg, noDivision, rfl⟩ := arithmetic?_eq_ok.mp made
      obtain ⟨value, rfl⟩ := Int.eq_ofNat_of_zero_le nonneg
      rw [Operation.eq_sign_of_ofText? known]
      exact .arithmetic found (by simpa using noDivision)
  | selection inner operator threshold =>
      refine outcome_placeNew fun node same => ?_
      obtain ⟨inner, found, made⟩ := except_bind_eq_ok.mp same
      obtain ⟨s, poolSlot, items, known, rfl, -, positive, fits, rfl⟩ := selection?_eq_ok.mp made
      obtain ⟨threshold, rfl⟩ := Int.eq_ofNat_of_zero_le (Int.le_trans (by decide) positive)
      exact .selection found (Selection.eq_spelling_of_ofText? known) (Int.ofNat_le.mp positive)
        fits
  | explosion inner comparison threshold limit =>
      exact outcome_makeExplosion mark inner comparison threshold limit
  | expression text face limit => exact outcome_makeExpression mark text face limit

end

/-! ### What is there -/

/-- The nodes of all trees of the session, also of those whose names were given anew. -/
def inhabitants (session : Session) : List (Node Nat) :=
  session.nodes.flatMap fun named => named.2.subtrees

theorem subtrees_subset_of_find {session : Session} {name : String} {node : Node Nat}
    (found : session.find name = .ok node) : node.subtrees ⊆ session.inhabitants := by
  obtain ⟨key, mem⟩ := exists_of_find found
  exact fun sub subMem => List.mem_flatMap.mpr ⟨_, mem, subMem⟩

theorem mem_inhabitants_of_find {session : Session} {name : String} {node : Node Nat}
    (found : session.find name = .ok node) : node ∈ session.inhabitants :=
  subtrees_subset_of_find found (self_mem_subtrees node)

theorem subtrees_subset_inhabitants {session : Session} {node : Node Nat}
    (mem : node ∈ session.inhabitants) : node.subtrees ⊆ session.inhabitants := by
  obtain ⟨named, namedMem, inTree⟩ := List.mem_flatMap.mp mem
  exact fun sub subMem =>
    List.mem_flatMap.mpr ⟨named, namedMem, subtrees_subset inTree subMem⟩

theorem subtrees_subset_of_findAll {session : Session} {names : List String}
    {items : List (Node Nat)} (found : session.findAll names = .ok items) :
    ∀ item ∈ items, item.subtrees ⊆ session.inhabitants := by
  induction names generalizing items with
  | nil =>
      cases found
      exact nofun
  | cons name rest ih =>
      rw [findAll, List.mapM_cons] at found
      obtain ⟨node, first, found⟩ := except_bind_eq_ok.mp found
      obtain ⟨nodes, others, found⟩ := except_bind_eq_ok.mp found
      cases found
      exact List.forall_mem_cons.mpr ⟨subtrees_subset_of_find first, ih others⟩

/-- The node is put together from nodes that are there and from these new ones, which take
slots that come next, each its own, and pass the checks of their sort. -/
structure Admits (session : Session) (taken : Nat) (node : Node Nat) (fresh : List (Node Nat)) :
    Prop where
  parts : node.subtrees ⊆ session.inhabitants ++ fresh
  apart : SlotsApart fresh
  above : ∀ new ∈ fresh, session.marks.size ≤ new.slot
  below : ∀ new ∈ fresh, new.slot < session.marks.size + taken
  checked : ∀ new ∈ fresh, new.Checked

section

variable {session : Session} {taken : Nat} {node : Node Nat}

/-- Nothing is new about a node that is there. -/
theorem admits_of_subset (there : node.subtrees ⊆ session.inhabitants) :
    session.Admits taken node [] :=
  ⟨by simpa using there, .nil, nofun, nofun, nofun⟩

/-- A new node around nodes that are there. -/
theorem admits_one (slot : node.slot = session.freshSlot)
    (inside : node.inside ⊆ session.inhabitants) (checked : node.Checked) :
    session.Admits 1 node [node] where
  parts sub mem := by
    rcases List.mem_cons.mp mem with rfl | mem
    · simp
    · exact List.mem_append_left _ (inside mem)
  apart := .singleton node
  above := by simp [slot, freshSlot]
  below := by simp [slot, freshSlot]
  checked := by simpa using checked

/-- The items of a pool are there if they are found. -/
theorem inside_pool_subset {slot : Nat} {items : List (Node Nat)}
    (each : ∀ item ∈ items, item.subtrees ⊆ session.inhabitants) :
    (Node.pool slot items).inside ⊆ session.inhabitants := by
  intro sub mem
  rw [inside_pool] at mem
  obtain ⟨item, itemMem, subMem⟩ := List.mem_flatMap.mp mem
  exact each item itemMem subMem

theorem inside_ofItems_subset {slot : Nat} {items : List (Node Nat)}
    (each : ∀ item ∈ items, item.subtrees ⊆ session.inhabitants) :
    (ofItems slot items).inside ⊆ session.inhabitants :=
  inside_pool_subset fun item mem => each item (List.mem_of_mem_filter mem)

theorem admits_numbered {built : Node Unit} (checked : ∀ sub ∈ built.subtrees, sub.Checked) :
    session.Admits ((built.numbered session.freshSlot).2 - session.freshSlot)
      (built.numbered session.freshSlot).1 (built.numbered session.freshSlot).1.subtrees where
  parts sub mem := List.mem_append_right _ mem
  apart := slotsApart_numbered session.freshSlot built
  above := le_slot_of_mem_numbered session.freshSlot built
  below sub mem := by
    obtain ⟨lt, below⟩ := slotsBelow_numbered session.freshSlot built
    have inBounds := below sub mem
    simp only [freshSlot] at lt inBounds ⊢
    omega
  checked := checked_numbered checked session.freshSlot

/-- A pool of a node and of copies of it. What the copies are made of is there already. -/
theorem admits_repeated {item : Node Nat} (there : item.subtrees ⊆ session.inhabitants)
    (checked : item.Checked) (nonempty : item.isEmptyPool = false) (count : Nat) :
    let copies := item.copies session.freshSlot count
    let pool := Node.pool (session.freshSlot + count) (item :: copies)
    session.Admits (count + 1) pool (pool :: copies) := by
  intro copies pool
  have slots : ∀ copy ∈ copies,
      session.freshSlot ≤ copy.slot ∧ copy.slot < session.freshSlot + count :=
    fun copy mem => slot_of_mem_copies mem
  have ofCopy : ∀ copy ∈ copies, copy.inside ⊆ session.inhabitants ∧ copy.Checked ∧
      copy.isEmptyPool = false := by
    intro copy mem
    obtain ⟨index, -, rfl⟩ := mem_copies.mp mem
    rw [inside_inSlot, isEmptyPool_inSlot]
    exact ⟨fun sub inside => there (List.mem_cons_of_mem _ inside), checked.inSlot _, nonempty⟩
  have inside : pool.inside ⊆ session.inhabitants ++ copies := by
    rw [inside_pool, List.flatMap_cons]
    refine List.append_subset.mpr ⟨fun sub mem => List.mem_append_left _ (there mem), ?_⟩
    intro sub mem
    obtain ⟨copy, copyMem, subMem⟩ := List.mem_flatMap.mp mem
    rcases List.mem_cons.mp subMem with rfl | deeper
    · exact List.mem_append_right _ copyMem
    · exact List.mem_append_left _ ((ofCopy copy copyMem).1 deeper)
  constructor
  · intro sub mem
    rcases List.mem_cons.mp mem with rfl | mem
    · simp
    · rcases List.mem_append.mp (inside mem) with old | new
      · exact List.mem_append_left _ old
      · exact List.mem_append_right _ (List.mem_cons_of_mem _ new)
  · exact (slotsApart_copies item _ count).cons fun copy mem => Nat.ne_of_lt (slots copy mem).2
  · exact List.forall_mem_cons.mpr ⟨Nat.le_add_right _ _, fun copy mem => (slots copy mem).1⟩
  · exact List.forall_mem_cons.mpr
      ⟨Nat.lt_succ_self _, fun copy mem => Nat.lt_succ_of_lt (slots copy mem).2⟩
  · exact List.forall_mem_cons.mpr ⟨List.forall_mem_cons.mpr
      ⟨nonempty, fun copy mem => (ofCopy copy mem).2.2⟩, fun copy mem => (ofCopy copy mem).2.1⟩

/-- What is made is put together from what is there. -/
theorem Makes.admits {recipe : Recipe} (makes : session.Makes recipe node taken)
    (checked : ∀ node ∈ session.inhabitants, node.Checked) :
    ∃ fresh, session.Admits taken node fresh := by
  cases makes with
  | sided enough => exact ⟨_, admits_one rfl (by simp) enough⟩
  | sidedText read => exact ⟨_, admits_one rfl (by simp) (Die.checked_of_readSided read)⟩
  | fudge => exact ⟨_, admits_one rfl (by simp) (by simp [Checked, Die.Checked, Die.size])⟩
  | percentile => exact ⟨_, admits_one rfl (by simp) (by simp [Checked, Die.Checked, Die.size])⟩
  | custom enough => exact ⟨_, admits_one rfl (by simp) enough⟩
  | customText read => exact ⟨_, admits_one rfl (by simp) (Die.checked_of_readCustom read)⟩
  | pool found =>
      have each := subtrees_subset_of_findAll found
      exact ⟨_, admits_one rfl (inside_ofItems_subset each) (checked_ofItems _ _)⟩
  | repeated found nonempty =>
      have there := subtrees_subset_of_find found
      have itemChecked := checked _ (mem_inhabitants_of_find found)
      exact ⟨_, admits_repeated there itemChecked nonempty _⟩
  | repeatedNothing found nothing positive =>
      exact ⟨_, admits_one rfl (by simp) (List.forall_mem_nil _)⟩
  | arithmetic found noDivision =>
      have there := subtrees_subset_of_find found
      exact ⟨_, admits_one rfl (by simpa using there) noDivision⟩
  | selection found upper positive fits =>
      have there := subtrees_subset_of_find found
      exact ⟨_, admits_one rfl (by simpa using there) ⟨positive, fits⟩⟩
  | @explosion _ inner _ _ _ _ found reported suits =>
      have there := subtrees_subset_of_find found
      have leaves : ∀ leaf ∈ inner.leaves, ∀ sub ∈ leaf.subtrees, sub.Checked :=
        fun leaf mem sub subMem =>
          checked sub (there (subtrees_subset (inner.leaves_subset mem) subMem))
      obtain ⟨reports, rfl⟩ := (mapM_reportedRange leaves).mp reported
      exact ⟨_, admits_one rfl (by simpa using there) ⟨reports, suits⟩⟩
  | expression built => exact ⟨_, admits_numbered (Workshop.checked_of_build _ built)⟩

end

/-! ### What a request leaves behind -/

/-- A request that gives this name, if any, is refused, or it is answered and leaves the nodes
as they are, or it names a node that is put together from what is there. -/
inductive Serves (session : Session) (given : Option String) (outcome : Session × Answer) :
    Prop where
  | refused (refuses : session.Refuses outcome)
  | answered (nodes : outcome.1.nodes = session.nodes)
      (slots : outcome.1.marks.size = session.marks.size)
      (answer : ∀ fault, outcome.2 ≠ .refused fault)
  | named {name : String} {node : Node Nat} {taken : Nat} {fresh : List (Node Nat)}
      (gives : given = some name) (names : session.Names name node taken outcome)
      (admits : session.Admits taken node fresh)

section

variable {session : Session} {given : Option String}

theorem serves_of_outcome {name : String} {made : Node Nat → Nat → Prop}
    {outcome : Session × Answer} (outcomes : session.Outcome name made outcome)
    (admits : ∀ node taken, made node taken → ∃ fresh, session.Admits taken node fresh) :
    session.Serves (some name) outcome := by
  rcases outcomes with refuses | ⟨node, taken, made, names⟩
  · exact .refused refuses
  · obtain ⟨fresh, admitted⟩ := admits node taken made
    exact .named rfl names admitted

theorem serves_refused (fault : Fault) : session.Serves given (session, .refused fault) :=
  .refused (refuses_self session fault)

/-- A session that stays as it is may answer anything. -/
theorem serves_self (answer : Answer) : session.Serves given (session, answer) := by
  by_cases refused : ∃ fault, answer = .refused fault
  · obtain ⟨fault, rfl⟩ := refused
    exact serves_refused fault
  · exact .answered rfl rfl (not_exists.mp refused)

/-- A node that is there may be named again. -/
theorem serves_place {node : Node Nat} (there : node.subtrees ⊆ session.inhabitants)
    (name : String) : session.Serves (some name) (session.place name node) :=
  .named rfl ⟨rfl, (Nat.add_zero _).symm, rfl⟩ (admits_of_subset there)

theorem serves_extend (name pool : String) (items : List String) :
    session.Serves (some name) (session.extend name pool items) := by
  unfold Session.extend
  split
  · exact serves_refused _
  · next slot old found =>
      have there := subtrees_subset_of_find found
      have outcomes : session.Outcome name (fun node taken =>
        ∃ fresh, session.Admits taken node fresh)
          (session.placeNew name (session.heard slot) ((session.findAll items).map fun added =>
            withItems session.freshSlot old added (.pool slot old))) := by
        refine outcome_placeNew fun node same => ?_
        obtain ⟨added, each, rfl⟩ := except_map_eq_ok.mp same
        unfold withItems
        split
        · exact ⟨[], admits_of_subset there⟩
        · refine ⟨_, admits_one rfl (inside_ofItems_subset fun item mem => ?_)
            (checked_ofItems _ _)⟩
          rcases List.mem_append.mp mem with mem | mem
          · intro sub subMem
            refine there (List.mem_cons_of_mem _ ?_)
            rw [inside_pool]
            exact List.mem_flatMap.mpr ⟨item, mem, subMem⟩
          · exact subtrees_subset_of_findAll each item (List.mem_of_mem_filter mem)
      exact serves_of_outcome outcomes fun _ _ => id
  · exact serves_refused _

theorem serves_step (checked : ∀ node ∈ session.inhabitants, node.Checked) (draws : Draws)
    (request : Request) : session.Serves request.given (session.step draws request) := by
  have sub : ∀ {name : String} {found part : Node Nat}, session.find name = .ok found →
      part ∈ found.subtrees → part.subtrees ⊆ session.inhabitants :=
    fun known mem _ subMem => subtrees_subset_of_find known (subtrees_subset mem subMem)
  cases request with
  | make name mark recipe =>
      exact serves_of_outcome (outcome_make mark recipe) fun node taken makes =>
        makes.admits checked
  | extend name pool items => exact serves_extend name pool items
  | nameInner name node =>
      simp only [step]
      refine withNode_cases serves_refused fun found known => ?_
      split
      · next inner same => exact serves_place (sub known (inner?_mem_subtrees same)) name
      · exact serves_refused _
  | nameChild name node index =>
      simp only [step]
      refine withNode_cases serves_refused fun found known => ?_
      split
      · next item same => exact serves_place (sub known (child_mem_subtrees same)) name
      · exact serves_refused _
  | ask node measure =>
      simp only [step]
      refine withNode_cases serves_refused fun found _ => ?_
      simp only [ask]
      cases (found.reply session.heard draws measure session.position).result with
      | ok value => exact .answered rfl rfl (by simp [Answer.ofResult])
      | error fault => exact .refused ⟨rfl, rfl, fault, rfl⟩
  | follow node mark =>
      simp only [step]
      exact withNode_cases serves_refused fun found _ =>
        .answered rfl (Array.size_setIfInBounds ..) (by simp)
  | reports | reportCount | clear => exact .answered rfl rfl (by simp [step])
  | _ =>
      simp only [step]
      exact withNode_cases serves_refused fun found _ => serves_self _

end

/-! ### Sound sessions -/

/-- Every node is in a slot of the session, which no other node is in, and passes the checks of
its sort. -/
structure Sound (session : Session) : Prop where
  housed : ∀ node ∈ session.inhabitants, node.slot < session.marks.size
  apart : SlotsApart session.inhabitants
  checked : ∀ node ∈ session.inhabitants, node.Checked

theorem sound_empty : empty.Sound :=
  ⟨nofun, .nil, nofun⟩

theorem Sound.serves {session : Session} (sound : session.Sound) {given : Option String}
    {outcome : Session × Answer} (serves : session.Serves given outcome) : outcome.1.Sound := by
  have kept : outcome.1.nodes = session.nodes → outcome.1.marks.size = session.marks.size →
      outcome.1.Sound := by
    intro nodes slots
    have same : outcome.1.inhabitants = session.inhabitants := by
      rw [inhabitants, nodes, inhabitants]
    constructor
    · rw [same, slots]
      exact sound.housed
    · rw [same]
      exact sound.apart
    · rw [same]
      exact sound.checked
  cases serves with
  | refused refuses => exact kept refuses.nodes (congrArg Array.size refuses.marks)
  | answered nodes slots _ => exact kept nodes slots
  | @named name node taken fresh _ names admits =>
      have grown : outcome.1.inhabitants ⊆ session.inhabitants ++ fresh := by
        rw [inhabitants, names.nodes, List.flatMap_cons]
        exact List.append_subset.mpr ⟨admits.parts, List.subset_append_left _ _⟩
      refine ⟨fun sub mem => ?_, ?_, fun sub mem => ?_⟩
      · rw [names.slots]
        rcases List.mem_append.mp (grown mem) with old | new
        · exact Nat.lt_add_right _ (sound.housed sub old)
        · exact admits.below sub new
      · exact (sound.apart.append admits.apart sound.housed admits.above).of_subset grown
      · rcases List.mem_append.mp (grown mem) with old | new
        · exact sound.checked sub old
        · exact admits.checked sub new

theorem Sound.step {session : Session} (sound : session.Sound) (draws : Draws)
    (request : Request) : (session.step draws request).1.Sound :=
  sound.serves (serves_step sound.checked draws request)

/-- Whatever is asked of a sound session, it stays sound. -/
theorem Sound.after {session : Session} (sound : session.Sound) (draws : Draws)
    (requests : List Request) : (session.after draws requests).Sound := by
  induction requests generalizing session with
  | nil => exact sound
  | cons request rest ih => exact ih (sound.step draws request)

end Session

/-! ### Lawful nodes -/

namespace Node

/-- Whenever it is asked, the node answers with these bounds. -/
def Answers (heard : Nat → Bool) (bounds : Int × Int) (node : Node Nat) : Prop :=
  ∀ draws position,
    (node.reply heard draws .minimum position).result = .ok bounds.1 ∧
      (node.reply heard draws .maximum position).result = .ok bounds.2

/-- The laws of a node in a session: enough faces, no empty pools in pools, nothing divided by
zero, no selection of more than there is, no explosion that could go on for ever, never happen
or make less.  What an explosion rolls are the leaves of what it was made of, and the bounds
that count are those that the leaves answer. -/
def Lawful (heard : Nat → Bool) : Node Nat → Prop
  | die _ d => 2 ≤ d.size
  | pool _ items => ∀ item ∈ items, item.isEmptyPool = false
  | arithmetic _ operation value _ =>
      Operation.ofText? [operation.sign] = some operation ∧ ¬(operation = .divide ∧ value = 0)
  | selection _ s threshold _ items =>
      Selection.ofText? s.spelling = some s ∧ Text.upper s.spelling = s.spelling ∧ items ≠ [] ∧
        1 ≤ threshold ∧
        (s = .dropHighest ∨ s = .dropLowest → threshold < items.length) ∧
        (s = .keepHighest ∨ s = .keepLowest → threshold ≤ items.length)
  | explosion slot rule inner =>
      inner.leaves ≠ [] ∧ (∀ leaf ∈ inner.leaves, leaf.isPool = false) ∧
        (∀ draws, (explosion slot rule inner).askRoll (.memory heard) draws = (do
          let values ← Evaluation.exploded rule (inner.leaves.map (askRoll (.memory heard) draws))
          Evaluation.tell (.memory heard) (explosion slot rule inner) .roll (.sum values)
            (total values))) ∧
        ∃ bounds, List.Forall₂ (Answers heard) bounds inner.leaves ∧ rule.Suits bounds

theorem isPool_of_mem_leaves {α : Type} {node leaf : Node α} (mem : leaf ∈ node.leaves) :
    leaf.isPool = false := by
  induction node with
  | pool slot items ih =>
      rw [leaves_pool] at mem
      obtain ⟨item, itemMem, found⟩ := List.mem_flatMap.mp mem
      exact ih item itemMem found
  | _ =>
      obtain rfl := List.mem_singleton.mp (by simpa only [leaves] using mem)
      rfl

theorem answers_range {node : Node Nat} (checked : ∀ sub ∈ node.subtrees, sub.Checked)
    (reports : ∀ side, node.isReported side = true) (heard : Nat → Bool) :
    node.Answers heard node.range := by
  have reported : ∀ side, node.reported side = .ok (node.extreme side) :=
    fun side => (reported_eq_ok checked side).mpr ⟨reports side, rfl⟩
  intro draws position
  exact ⟨(reply_measure heard draws node .lowest position).1.trans (reported .lowest),
    (reply_measure heard draws node .highest position).1.trans (reported .highest)⟩

/-- A checked node is lawful, whoever is heard. -/
theorem lawful_of_checked {node : Node Nat} (checked : ∀ sub ∈ node.subtrees, sub.Checked)
    (heard : Nat → Bool) : node.Lawful heard := by
  have self := checked node (self_mem_subtrees node)
  cases node with
  | die slot d => exact self
  | pool slot items => exact self
  | arithmetic slot operation value inner =>
      refine ⟨?_, self⟩
      cases operation <;> rfl
  | selection slot s threshold poolSlot items =>
      obtain ⟨positive, fits⟩ := self
      have enough : (pool poolSlot items).Suffices s threshold := suffices_of_fits fits
      refine ⟨?_, ?_, s.ne_nil_of_fits positive fits, positive, enough.drops,
        enough.keeps⟩
      · cases s <;> rfl
      · cases s <;> rfl
  | explosion slot rule inner =>
      refine ⟨?_, fun leaf => isPool_of_mem_leaves, fun draws => askRoll_explosion ..,
        inner.leaves.map range, ?_, self.suits⟩
      · obtain ⟨range, mem, -⟩ := self.suits.canExplode
        exact fun nothing => List.ne_nil_of_mem mem (by rw [nothing, List.map_nil])
      · rw [List.forall₂_map_left_iff, List.forall₂_same]
        intro leaf mem
        refine answers_range (fun sub subMem => checked sub ?_) (self.reports leaf mem) heard
        exact subtrees_subset (List.mem_cons_of_mem _ (leaf_mem_inside_explosion slot rule mem))
          subMem

end Node

namespace Session

open Node

/-- Whatever was asked of a session, all of its nodes are lawful; what it refuses leaves no
node behind, and nothing but a roll takes draws; and what it makes is what the recipe allows. -/
theorem nodes_are_lawful (draws : Draws) (requests : List Request) :
    let session := empty.after draws requests
    (∀ node ∈ session.inhabitants, node.Lawful session.heard) ∧
      (∀ request fault, (session.step draws request).2 = .refused fault →
        session.Refuses (session.step draws request)) ∧
      (∀ request, (∀ name, request ≠ .ask name .roll) →
        (session.step draws request).1.position = session.position) ∧
      ∀ name mark recipe,
        session.Outcome name (session.Makes recipe)
          (session.step draws (.make name mark recipe)) := by
  intro session
  have sound : session.Sound := sound_empty.after draws requests
  refine ⟨fun node mem => ?_, ?_, fun request => position_step draws session,
    fun name mark recipe => outcome_make mark recipe⟩
  · exact lawful_of_checked
      (fun sub subMem => sound.checked sub (subtrees_subset_inhabitants mem subMem)) session.heard
  · intro request fault refused
    cases serves_step sound.checked draws request with
    | refused refuses => exact refuses
    | answered _ _ answer => exact absurd refused (answer fault)
    | named _ names _ => exact absurd (names.answer.symm.trans refused) nofun

/-- A die, its copy and an explosion of both, which is rolled: the bounds of the dice are still
those on which it was made. An explosion that could never happen is refused afterwards. -/
theorem copied_and_exploded_dice_are_lawful :
    let draws : Draws := .cycle #[3, 1]
    let session := empty.after draws
      [.make "die" true (.sided 4), .make "pool" false (.repeated "die" 2),
        .make "explosion" true (.explosion "pool" ['>'] 3 1), .ask "explosion" .roll,
        .follow "die" false]
    let request : Request := .make "never" true (.explosion "pool" ['<'] 1 1)
    session.inhabitants.length = 8 ∧
      (session.step draws request).2 = .refused (.deadExplosion ['2', 'D', '4'] ['<'] 1) ∧
      (∀ node ∈ session.inhabitants, node.Lawful session.heard) ∧
      session.Refuses (session.step draws request) ∧
      (session.step draws request).1.position = session.position := by
  intro draws session request
  have refused : (session.step draws request).2
      = .refused (.deadExplosion ['2', 'D', '4'] ['<'] 1) := by with_unfolding_all rfl
  obtain ⟨lawful, refuses, still, -⟩ := nodes_are_lawful draws
    [.make "die" true (.sided 4), .make "pool" false (.repeated "die" 2),
      .make "explosion" true (.explosion "pool" ['>'] 3 1), .ask "explosion" .roll,
      .follow "die" false]
  exact ⟨by decide, refused, lawful, refuses request _ refused, still request nofun⟩

end Session

end DicePool
