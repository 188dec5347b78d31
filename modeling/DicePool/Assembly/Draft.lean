/-
Module: DicePool.Assembly.Draft
Purpose: Expressions that are described part by part, and of which parts may be missing.
Main exports: ModifierDraft, Draft, Draft.ofTerm, Workshop.draft, Workshop.assembleDrafts
-/
import DicePool.Assembly

/-!
A draft says what a term says, but whoever writes it may leave parts out.  It is built
like a term, in the same order, and a part is missed only when its turn comes: a fault
in what stands before it comes first, and the questions that were asked until then stay
asked.

Main statement: `Workshop.draft_ofTerm`, a draft from which nothing is missing is built
as the term that it describes.
-/

namespace DicePool

/-- A modifier of which any part may be missing. -/
structure ModifierDraft where
  kind : Option ModifierKind
  operator : Option Text
  value : Option Int
deriving Repr, DecidableEq

/-- A term of which parts may be missing. -/
inductive Draft where
  /-- So many dice of one type. A draft of nothing at all is one without a type. -/
  | dice (type : Option Text) (quantity : Option Int)
      (modifiers : Option (List ModifierDraft))
  /-- The terms in a pair of parentheses. -/
  | group (terms : List Draft) (modifiers : Option (List ModifierDraft))
deriving Repr, Inhabited

/-- A part whose turn has come. -/
def Draft.need {β : Type} : Option β → Assembly β
  | some part => pure part
  | none => .ofExcept (.error .missingPart)

namespace ModifierDraft

/-- The modifier that is described, if nothing is missing. -/
def complete (draft : ModifierDraft) : Assembly Modifier := do
  let kind ← Draft.need draft.kind
  let operator ← Draft.need draft.operator
  let value ← Draft.need draft.value
  return ⟨kind, operator, value⟩

/-- The draft of a modifier. -/
def ofModifier (modifier : Modifier) : ModifierDraft :=
  ⟨some modifier.kind, some modifier.operator, some modifier.value⟩

end ModifierDraft

namespace Draft

mutual

/-- The draft of a term, with all its parts. -/
def ofTerm : Term → Draft
  | .dice type quantity modifiers =>
      .dice (some type) (some quantity) (some (modifiers.map .ofModifier))
  | .group terms modifiers => .group (ofTerms terms) (some (modifiers.map .ofModifier))

/-- The drafts of terms. -/
def ofTerms : List Term → List Draft
  | [] => []
  | first :: rest => ofTerm first :: ofTerms rest

end

end Draft

namespace Workshop

/-- Applies modifiers one after the other. -/
def modifyAsDrafted (shop : Workshop) (node : Node Unit) :
    List ModifierDraft → Assembly (Node Unit)
  | [] => pure node
  | draft :: rest => do
      let modifier ← draft.complete
      let modified ← shop.modify node modifier
      shop.modifyAsDrafted modified rest

mutual

/-- Builds the term of a draft. -/
def draft (shop : Workshop) : Draft → Assembly (Node Unit)
  | .dice type quantity modifiers => do
      let d ← Draft.need type >>= fun type => .ofExcept (Die.read type)
      let node ← Draft.need quantity >>= pool d
      let modified ← Draft.need modifiers >>= shop.modifyAsDrafted node
      return modified.flatten
  | .group terms modifiers => do
      let parts ← shop.drafts terms
      let modified ← Draft.need modifiers >>= shop.modifyAsDrafted (gather parts)
      return modified.flatten

/-- Builds the terms of drafts in order. -/
def drafts (shop : Workshop) : List Draft → Assembly (List (Node Unit))
  | [] => pure []
  | first :: rest => do
      let node ← shop.draft first
      let nodes ← shop.drafts rest
      return node :: nodes

end

/-- The node of an expression that is described by drafts. -/
def assembleDrafts (shop : Workshop) (expression : List Draft) : Assembly (Node Unit) := do
  let parts ← shop.drafts expression
  return gather parts

@[simp] theorem need_some_bind {β γ : Type} (part : β) (next : β → Assembly γ) :
    (Draft.need (some part) >>= next) = next part := by
  simp [Draft.need]

theorem modifyAsDrafted_ofModifier (shop : Workshop) (node : Node Unit)
    (modifiers : List Modifier) :
    shop.modifyAsDrafted node (modifiers.map .ofModifier) = shop.modifyAll node modifiers := by
  induction modifiers generalizing node with
  | nil => rfl
  | cons modifier rest ih =>
      simp [modifyAsDrafted, modifyAll, ModifierDraft.ofModifier, ModifierDraft.complete, ih]

mutual

/-- A draft from which nothing is missing is built as the term that it describes. -/
theorem draft_ofTerm (shop : Workshop) : ∀ term : Term,
    shop.draft (.ofTerm term) = shop.term term
  | .dice type quantity modifiers => by
      simp [draft, Draft.ofTerm, term, dice, modifyAsDrafted_ofModifier]
  | .group terms modifiers => by
      simp [draft, Draft.ofTerm, term, modifyAsDrafted_ofModifier, drafts_ofTerms shop terms]

theorem drafts_ofTerms (shop : Workshop) : ∀ expression : List Term,
    shop.drafts (Draft.ofTerms expression) = shop.terms expression
  | [] => rfl
  | first :: rest => by
      simp [drafts, Draft.ofTerms, terms, draft_ofTerm shop first, drafts_ofTerms shop rest]

end

end Workshop

end DicePool
