/-
Module: DicePool.Proofs.Sharing
Purpose: Which items the shares of a pool stand for, and that these items have the same shares.
Main exports: Share.Tidy, Share.tidy_ofItems, Bundle, Bundle.expand, Bundle.exists_of_items,
  Bundle.ofItems_expand
-/
import Mathlib.Data.List.Perm.Basic
import DicePool.Node.Spelling

/-!
A share holds a text and a count, a bundle an item and a count.  The items of a pool can be
bundled so that the bundles are written as the shares of the pool:
`Bundle.exists_of_items`.  The items of the bundles, one bundle after the other, are those
of the pool in another order, and their shares are the same: `Bundle.ofItems_expand`.

Which bundle an item belongs to is decided by its key, that is by whether it is a die and
by its text, so dice with one text must be equal.
-/

namespace DicePool

/-! ### Tidy shares -/

namespace Share

/-- No share is empty, all dice that are written alike are in one share, and anything else
is alone in its share. -/
structure Tidy (shares : List Share) : Prop where
  counted : ∀ share ∈ shares, 1 ≤ share.count
  alone : ∀ share ∈ shares, share.isDie = false → share.count = 1
  apart : shares.Pairwise fun one two => one.isDie = true → isOfDice one.text two = false

theorem isOfDice_iff {text : Text} {share : Share} :
    isOfDice text share = true ↔ share.isDie = true ∧ share.text = text := by
  simp [isOfDice]

/-- A share of one item that no other share could have taken comes to the front. -/
theorem Tidy.cons {shares : List Share} (tidy : Tidy shares) {text : Text} {isDie : Bool}
    (other : isDie = true → ∀ share ∈ shares, isOfDice text share = false) :
    Tidy (⟨text, isDie, 1⟩ :: shares) where
  counted share mem := by
    rcases List.mem_cons.mp mem with rfl | mem
    · exact Nat.le_refl 1
    · exact tidy.counted share mem
  alone share mem notDie := by
    rcases List.mem_cons.mp mem with rfl | mem
    · rfl
    · exact tidy.alone share mem notDie
  apart := List.pairwise_cons.mpr ⟨fun share mem isDie => other isDie share mem, tidy.apart⟩

/-- A share of dice comes to the front and grows. -/
theorem Tidy.grow {share : Share} {before after : List Share}
    (tidy : Tidy (before ++ share :: after)) (isDie : share.isDie = true) :
    Tidy (⟨share.text, true, share.count + 1⟩ :: (before ++ after)) := by
  have subset : ∀ other ∈ before ++ after, other ∈ before ++ share :: after := by
    intro other mem
    rcases List.mem_append.mp mem with mem | mem
    · exact List.mem_append_left _ mem
    · exact List.mem_append_right _ (List.mem_cons_of_mem _ mem)
  obtain ⟨apartBefore, apartAfter, across⟩ := List.pairwise_append.mp tidy.apart
  refine ⟨?_, ?_, ?_⟩
  · intro other mem
    rcases List.mem_cons.mp mem with rfl | mem
    · exact Nat.le_add_left _ _
    · exact tidy.counted other (subset other mem)
  · intro other mem notDie
    rcases List.mem_cons.mp mem with rfl | mem
    · contradiction
    · exact tidy.alone other (subset other mem) notDie
  · refine List.pairwise_cons.mpr ⟨?_, ?_⟩
    · intro other mem _
      rcases List.mem_append.mp mem with mem | mem
      · rw [← Bool.not_eq_true, isOfDice_iff]
        rintro ⟨otherDie, same⟩
        have unlike := across other mem share List.mem_cons_self otherDie
        rw [← Bool.not_eq_true, isOfDice_iff] at unlike
        exact unlike ⟨isDie, same.symm⟩
      · exact List.rel_of_pairwise_cons apartAfter mem isDie
    · refine List.pairwise_append.mpr ⟨apartBefore, apartAfter.of_cons, ?_⟩
      intro one oneMem two twoMem
      exact across one oneMem two (List.mem_cons_of_mem _ twoMem)

/-- What adding an item to shares does: it begins a share, or it joins the share of the
dice that are written like it. -/
theorem add_cases (isDie : Bool) (text : Text) (shares : List Share) :
    ((isDie = true → ∀ share ∈ shares, isOfDice text share = false) ∧
      add isDie text shares = ⟨text, isDie, 1⟩ :: shares) ∨
    ∃ before share after, shares = before ++ share :: after ∧ isDie = true ∧
      share.isDie = true ∧ share.text = text ∧
      add isDie text shares = ⟨text, true, share.count + 1⟩ :: (before ++ after) := by
  cases isDie with
  | false => exact .inl ⟨fun isDie => by contradiction, by simp [add]⟩
  | true =>
      cases found : shares.find? (isOfDice text) with
      | none =>
          refine .inl ⟨fun _ share mem => ?_, by simp [add, found]⟩
          simpa using List.find?_eq_none.mp found share mem
      | some share =>
          obtain ⟨ofDice, before, after, rfl, notBefore⟩ := List.find?_eq_some_iff_append.mp found
          obtain ⟨shareDie, same⟩ := isOfDice_iff.mp ofDice
          refine .inr ⟨before, share, after, rfl, rfl, shareDie, same, ?_⟩
          have erased : (before ++ share :: after).eraseP (isOfDice text) = before ++ after := by
            rw [List.eraseP_append_right _ (by simpa using notBefore),
              List.eraseP_cons_of_pos ofDice]
          simp only [add, if_true, found, erased]

theorem Tidy.add {shares : List Share} (tidy : Tidy shares) (isDie : Bool) (text : Text) :
    Tidy (Share.add isDie text shares) := by
  rcases add_cases isDie text shares with
    ⟨other, added⟩ | ⟨before, share, after, rfl, -, shareDie, rfl, added⟩
  · rw [added]
    exact tidy.cons other
  · rw [added]
    exact tidy.grow shareDie

/-- The shares of a pool are tidy. -/
theorem tidy_ofItems (items : List (Bool × Text)) : Tidy (ofItems items) := by
  induction items with
  | nil => exact ⟨by simp [ofItems], by simp [ofItems], .nil⟩
  | cons item rest ih => exact ih.add item.1 item.2

theorem mem_add {isDie : Bool} {text : Text} {shares : List Share} {share : Share}
    (mem : share ∈ Share.add isDie text shares) : share.text = text ∨ share ∈ shares := by
  rcases add_cases isDie text shares with
    ⟨-, added⟩ | ⟨before, taken, after, rfl, -, -, -, added⟩
  · rw [added] at mem
    rcases List.mem_cons.mp mem with rfl | mem
    · exact .inl rfl
    · exact .inr mem
  · rw [added] at mem
    rcases List.mem_cons.mp mem with rfl | mem
    · exact .inl rfl
    · refine .inr ?_
      rcases List.mem_append.mp mem with mem | mem
      · exact List.mem_append_left _ mem
      · exact List.mem_append_right _ (List.mem_cons_of_mem _ mem)

/-- The shares of a pool have the texts of its items. -/
theorem exists_of_mem_ofItems {items : List (Bool × Text)} {share : Share}
    (mem : share ∈ ofItems items) : ∃ item ∈ items, item.2 = share.text := by
  induction items with
  | nil => exact absurd mem List.not_mem_nil
  | cons item rest ih =>
      rcases mem_add mem with own | mem
      · exact ⟨item, List.mem_cons_self, own.symm⟩
      · obtain ⟨other, otherMem, same⟩ := ih mem
        exact ⟨other, List.mem_cons_of_mem _ otherMem, same⟩

/-- Equal dice that are added to shares without such dice make one share. -/
theorem foldr_add_replicate {text : Text} {shares : List Share}
    (absent : ∀ share ∈ shares, isOfDice text share = false) (count : Nat) :
    (List.replicate (count + 1) (true, text)).foldr (fun item => Share.add item.1 item.2) shares =
      ⟨text, true, count + 1⟩ :: shares := by
  induction count with
  | zero =>
      have missing : shares.find? (isOfDice text) = none :=
        List.find?_eq_none.mpr (by simpa using absent)
      simp [Share.add, missing]
  | succ count ih =>
      have present : isOfDice text ⟨text, true, count + 1⟩ = true := by
        simp [isOfDice]
      rw [List.replicate_succ, List.foldr_cons, ih]
      simp [Share.add, present]

end Share

/-! ### Bundles -/

/-- Equal items of a pool. -/
structure Bundle (β : Type) where
  item : β
  count : Nat

namespace Bundle

variable {β : Type} {key : β → Bool × Text}

/-- The items of a bundle. -/
def items (bundle : Bundle β) : List β :=
  List.replicate bundle.count bundle.item

/-- The items of bundles, one bundle after the other. -/
def expand (bundles : List (Bundle β)) : List β :=
  bundles.flatMap items

@[simp] theorem expand_nil : expand ([] : List (Bundle β)) = [] := rfl

@[simp] theorem expand_cons (bundle : Bundle β) (rest : List (Bundle β)) :
    expand (bundle :: rest) = bundle.items ++ expand rest := by
  simp [expand]

/-- How a bundle is written. -/
def share (key : β → Bool × Text) (bundle : Bundle β) : Share :=
  ⟨(key bundle.item).2, (key bundle.item).1, bundle.count⟩

/-- The items of bundles that are written as tidy shares have these shares. -/
theorem ofItems_expand {bundles : List (Bundle β)} (tidy : Share.Tidy (bundles.map (share key))) :
    Share.ofItems ((expand bundles).map key) = bundles.map (share key) := by
  induction bundles with
  | nil => rfl
  | cons bundle rest ih =>
      obtain ⟨counted, alone, apart⟩ := tidy
      rw [List.map_cons] at counted alone apart ⊢
      have later := ih ⟨fun share mem => counted share (List.mem_cons_of_mem _ mem),
        fun share mem => alone share (List.mem_cons_of_mem _ mem), apart.of_cons⟩
      unfold Share.ofItems at later ⊢
      rw [expand_cons, List.map_append, List.foldr_append, later, items, List.map_replicate]
      obtain ⟨item, count⟩ := bundle
      cases sort : (key item).1 with
      | false =>
          obtain rfl : count = 1 := alone _ List.mem_cons_self sort
          simp [Share.add, share, sort]
      | true =>
          obtain ⟨more, rfl⟩ := Nat.exists_eq_succ_of_ne_zero
            (Nat.one_le_iff_ne_zero.mp (counted _ List.mem_cons_self))
          have keyed : key item = (true, (key item).2) := by rw [← sort]
          have absent : ∀ other ∈ rest.map (share key),
              Share.isOfDice (key item).2 other = false :=
            fun other mem => List.rel_of_pairwise_cons apart mem sort
          rw [keyed, Share.foldr_add_replicate absent more, ← sort]
          rfl

/-- An item joins its bundle as it joins its share. -/
theorem exists_of_add {bundles : List (Bundle β)} (item : β)
    (known : ∀ bundle ∈ bundles, (key item).1 = true → key item = key bundle.item →
      item = bundle.item) :
    ∃ more : List (Bundle β),
      Share.add (key item).1 (key item).2 (bundles.map (share key)) = more.map (share key) ∧
      (item :: expand bundles).Perm (expand more) := by
  rcases Share.add_cases (key item).1 (key item).2 (bundles.map (share key)) with
    ⟨-, added⟩ | ⟨before, shared, after, split, isDie, sharedDie, same, added⟩
  · exact ⟨⟨item, 1⟩ :: bundles, added, by simp [items]⟩
  · obtain ⟨front, back, rfl, rfl, bundled⟩ := List.map_eq_append_iff.mp split
    obtain ⟨bundle, rear, rfl, rfl, rfl⟩ := List.map_eq_cons_iff.mp bundled
    have keys : key item = key bundle.item :=
      Prod.ext (isDie.trans sharedDie.symm) same.symm
    obtain rfl := known bundle (by simp) isDie keys
    refine ⟨⟨bundle.item, bundle.count + 1⟩ :: (front ++ rear), ?_, ?_⟩
    · rw [added]
      simp [share, isDie]
    · simp only [expand, List.flatMap_append, List.flatMap_cons, items, List.replicate_succ,
        List.cons_append]
      exact List.Perm.cons _ (List.perm_append_comm_assoc ..)

/-- A bundle that is written as a tidy share holds its item. -/
theorem item_mem_expand {bundles : List (Bundle β)} (tidy : Share.Tidy (bundles.map (share key)))
    {bundle : Bundle β} (mem : bundle ∈ bundles) : bundle.item ∈ expand bundles := by
  have positive : 1 ≤ bundle.count := tidy.counted _ (List.mem_map_of_mem mem)
  apply List.mem_flatMap.mpr
  exact ⟨bundle, mem, List.mem_replicate.mpr ⟨Nat.one_le_iff_ne_zero.mp positive, rfl⟩⟩

/-- The items of a pool in bundles, which are written as the shares of the pool. -/
theorem exists_of_items (all : List β)
    (known : ∀ one ∈ all, ∀ two ∈ all, (key one).1 = true → key one = key two → one = two) :
    ∃ bundles : List (Bundle β), Share.ofItems (all.map key) = bundles.map (share key) ∧
      all.Perm (expand bundles) := by
  induction all with
  | nil => exact ⟨[], rfl, .nil⟩
  | cons item rest ih =>
      obtain ⟨bundles, shares, perm⟩ :=
        ih fun one oneMem two twoMem => known one (by simp [oneMem]) two (by simp [twoMem])
      have tidy := Share.tidy_ofItems (rest.map key)
      rw [shares] at tidy
      have knownItem : ∀ bundle ∈ bundles, (key item).1 = true → key item = key bundle.item →
          item = bundle.item := by
        intro bundle mem isDie same
        have restMem := perm.mem_iff.mpr (item_mem_expand tidy mem)
        exact known item (by simp) bundle.item (List.mem_cons_of_mem _ restMem) isDie same
      obtain ⟨more, added, permMore⟩ := exists_of_add item knownItem
      refine ⟨more, ?_, (perm.cons item).trans permMore⟩
      rw [← added, ← shares]
      rfl

end Bundle

end DicePool
