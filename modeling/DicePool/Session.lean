/-
Module: DicePool.Session
Purpose: Named nodes that share a stream of draws and a journal of the steps that are followed.
Main exports: Session, Session.empty, Session.step, Session.run
-/
import DicePool.Assembly
import DicePool.Node.Ask
import DicePool.Session.Request

/-!
A node that is put into others stays the same node there, and whether it is followed
is decided in one place for all of its occurrences.  So the nodes are values, and only
their slots are looked up: the session keeps one mark for each slot, and a node occurs
wherever its slot does.

A request that is refused names nothing, and only a roll has drawn anything by then.  The
steps that were followed before the refusal stay in the journal.
-/

namespace DicePool

/-- The nodes of a session, and what they share. -/
structure Session where
  /-- The named nodes, the latest name first. -/
  nodes : List (String × Node Nat)
  /-- For each slot, whether its node is followed. -/
  marks : Array Bool
  /-- The position of the first draw that is still unread. -/
  position : Nat
  /-- The steps that were followed, in order. -/
  journal : List Report
deriving Repr

namespace Session

/-- A session without nodes, at the beginning of its stream. -/
def empty : Session :=
  ⟨[], #[], 0, []⟩

/-- Whether the node in this slot is followed. -/
def heard (session : Session) (slot : Nat) : Bool :=
  (session.marks[slot]?).getD false

/-- The first slot that no node is in. -/
def freshSlot (session : Session) : Nat :=
  session.marks.size

/-- The session with further slots, all marked alike. -/
def withSlots (session : Session) (count : Nat) (mark : Bool) : Session :=
  { session with marks := session.marks ++ Array.replicate count mark }

/-- The session with further entries in its journal. -/
def record {α : Type} (session : Session) (entries : List (Entry α)) : Session :=
  { session with journal := session.journal ++ entries.map Entry.report }

/-- The node of this name. -/
def find (session : Session) (name : String) : Except Fault (Node Nat) :=
  match session.nodes.find? (·.1 == name) with
  | some (_, node) => .ok node
  | none => .error (.noSuchNode name)

/-- The nodes of these names. -/
def findAll (session : Session) (names : List String) : Except Fault (List (Node Nat)) :=
  names.mapM session.find

/-- The session in which the node has the name. -/
def named (session : Session) (name : String) (node : Node Nat) : Session :=
  { session with nodes := (name, node) :: session.nodes }

/-- Names a node and says what it is. -/
def place (session : Session) (name : String) (node : Node Nat) : Session × Answer :=
  (session.named name node, .made node.title node.spelling?)

/-- Names a node that takes the next slot, or reports why there is none. -/
def placeNew (session : Session) (name : String) (mark : Bool)
    (made : Except Fault (Node Nat)) : Session × Answer :=
  match made with
  | .ok node => (session.withSlots 1 mark).place name node
  | .error fault => (session, .refused fault)

/-- Makes a pool of a node and of copies of it. A copy has a slot of its own, which
is followed if the node is; what the node is made of is shared. Of an empty pool there
are no copies, however many are asked for. -/
def makeRepeated (session : Session) (name : String) (mark : Bool) (item : String)
    (quantity : Int) : Session × Answer :=
  match session.find item, checkQuantity quantity with
  | .error fault, _ => (session, .refused fault)
  | _, .error fault => (session, .refused fault)
  | .ok node, .ok count =>
      let count := if node.isEmptyPool then 1 else count
      let first := session.freshSlot
      let copies := (List.range (count - 1)).map fun index => node.inSlot (first + index)
      let session := session.withSlots (count - 1) (session.heard node.slot)
      session.placeNew name mark (.ok (.ofItems session.freshSlot (node :: copies)))

/-- Makes an explosion. The questions to its dice are followed. -/
def makeExplosion (session : Session) (name : String) (mark : Bool) (inner : String)
    (comparison : Text) (threshold limit : Int) : Session × Answer :=
  match session.find inner with
  | .error fault => (session, .refused fault)
  | .ok node =>
      let outcome :=
        (node.explosion? (.memory session.heard) session.freshSlot comparison threshold
          limit).remembered session.position
      (session.record outcome.entries).placeNew name mark outcome.result

/-- Makes the node of an expression. All of its nodes are marked alike. -/
def makeExpression (session : Session) (name : String) (mark : Bool)
    (text : Text) (defaultFace : Option Text) (limit : Int) : Session × Answer :=
  let work := Workshop.build ⟨defaultFace, limit, mark⟩ text
  let session := session.record work.entries
  match work.result with
  | .error fault => (session, .refused fault)
  | .ok node =>
      let (node, next) := node.numbered session.freshSlot
      (session.withSlots (next - session.freshSlot) mark).place name node

/-- Makes a node and gives it a name. -/
def make (session : Session) (name : String) (mark : Bool) : Recipe → Session × Answer
  | .sided sides =>
      session.placeNew name mark ((Die.withSides sides).map (.die session.freshSlot))
  | .sidedText text =>
      session.placeNew name mark ((Die.readSided text).map (.die session.freshSlot))
  | .fudge => session.placeNew name mark (.ok (.die session.freshSlot .fudge))
  | .percentile => session.placeNew name mark (.ok (.die session.freshSlot .percentile))
  | .custom faces =>
      session.placeNew name mark ((Die.withFaces faces).map (.die session.freshSlot))
  | .customText text =>
      session.placeNew name mark ((Die.readCustom text).map (.die session.freshSlot))
  | .pool items =>
      session.placeNew name mark ((session.findAll items).map (.ofItems session.freshSlot))
  | .repeated item quantity => session.makeRepeated name mark item quantity
  | .arithmetic inner operator value =>
      session.placeNew name mark
        (session.find inner >>= Node.arithmetic? session.freshSlot operator value)
  | .selection inner operator threshold =>
      session.placeNew name mark
        (session.find inner >>= Node.selection? session.freshSlot operator threshold)
  | .explosion inner comparison threshold limit =>
      session.makeExplosion name mark inner comparison threshold limit
  | .expression text defaultFace limit =>
      session.makeExpression name mark text defaultFace limit

/-- Names the pool that holds further items. It is followed if the old one is. The
items are looked up only once there is a pool to hold them. -/
def extend (session : Session) (name : String) (pool : String) (items : List String) :
    Session × Answer :=
  match session.find pool with
  | .error fault => (session, .refused fault)
  | .ok (.pool slot old) =>
      session.placeNew name (session.heard slot)
        ((session.findAll items).map fun added =>
          .withItems session.freshSlot old added (.pool slot old))
  | .ok _ => (session, .refused .notAnswered)

/-- The item of a pool with this index. A negative index counts from the end. -/
def child (node : Node Nat) (index : Int) : Except Fault (Node Nat) :=
  match node with
  | .pool _ items =>
      let index := if index < 0 then index + items.length else index
      if index < 0 then .error (.noSuchChild index)
      else
        match items[index.toNat]? with
        | some item => .ok item
        | none => .error (.noSuchChild index)
  | _ => .error .hasNoItems

/-- Asks a node for a measure. -/
def ask (draws : Draws) (session : Session) (node : Node Nat) (measure : Measure) :
    Session × Answer :=
  let outcome := node.reply session.heard draws measure session.position
  ({ session.record outcome.entries with position := outcome.next }, .ofResult outcome.result)

/-- An answer for which a node has to be written. -/
def writing (node : Node Nat) (answer : Answer) : Answer :=
  if node.isWritable then answer else .refused .numberTooLong

/-- Answers a question about a node that changes nothing. -/
def inspect (node : Node Nat) : Request → Answer
  | .size _ =>
      match node with
      | .die _ d => .number d.size
      | _ => .refused .notAnswered
  | .count _ =>
      match node with
      | .pool _ items => .number items.length
      | _ => .refused .notAnswered
  | .isEmpty _ =>
      match node with
      | .pool _ items => .flag items.isEmpty
      | _ => .refused .notAnswered
  | .spelling _ => writing node (.text node.spelling)
  | .innerSpelling _ =>
      match node.inner? with
      | some inner => writing inner (.text (node.innerSpelling inner))
      | none => .refused .notAnswered
  | .wraps _ =>
      match node.inner? with
      | some inner => writing inner (.flag node.wraps)
      | none => .refused .notAnswered
  | .tree _ => .tree node
  | .select _ values =>
      match node with
      | .selection _ s threshold _ _ => .numbers (s.select threshold values)
      | _ => .refused .notAnswered
  | .matches _ value =>
      match node with
      | .explosion _ rule _ => .flag (rule.matches? value)
      | _ => .refused .notAnswered
  | .calculate _ lhs =>
      match node with
      | .arithmetic _ operation value _ => .number (operation.apply lhs value)
      | _ => .refused .notAnswered
  | _ => .refused .notAnswered

/-- Goes on with the node of a name, if there is one. -/
def withNode (session : Session) (name : String)
    (next : Node Nat → Session × Answer) : Session × Answer :=
  match session.find name with
  | .error fault => (session, .refused fault)
  | .ok node => next node

/-- Answers one request. -/
def step (draws : Draws) (session : Session) (request : Request) : Session × Answer :=
  match request with
  | .make name mark recipe => session.make name mark recipe
  | .extend name pool items => session.extend name pool items
  | .nameInner name node =>
      session.withNode node fun found =>
        match found.inner? with
        | some inner => session.place name inner
        | none => (session, .refused .notAnswered)
  | .nameChild name node index =>
      session.withNode node fun found =>
        match child found index with
        | .ok item => session.place name item
        | .error fault => (session, .refused fault)
  | .ask node measure => session.withNode node fun found => ask draws session found measure
  | .follow node mark =>
      session.withNode node fun found =>
        ({ session with marks := session.marks.setIfInBounds found.slot mark }, .nothing)
  | .reports => (session, .reports session.journal)
  | .reportCount => (session, .number session.journal.length)
  | .clear => ({ session with journal := [] }, .nothing)
  | .size node | .count node | .isEmpty node | .spelling node | .innerSpelling node
  | .wraps node | .tree node | .select node _ | .matches node _ | .calculate node _ =>
      session.withNode node fun found => (session, inspect found request)

/-- Answers requests in order. Each answer comes with the number of draws that it
took. -/
def run (draws : Draws) : Session → List Request → List (Answer × Nat)
  | _, [] => []
  | session, request :: rest =>
      let (later, answer) := session.step draws request
      (answer, later.position - session.position) :: run draws later rest

end Session

end DicePool
