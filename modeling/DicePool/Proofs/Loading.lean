/-
Module: DicePool.Proofs.Loading
Purpose: What can be wrong with the settings that the command line is given.
Main exports: Settings.Holds, Settings.Unusable, Settings.Refused, Command.openSettings_eq_error,
  Folder.isExplained_of_read_eq_error
-/
import DicePool.Command
import DicePool.Command.Folder
import DicePool.Proofs.Checking

/-!
Settings are read in stages: a file is opened, its text is loaded, and the value that comes out is
checked as settings.  Each stage looks only at what those before it have let through, and within a
stage the first problem counts.  Opening and loading are done elsewhere, and whatever fault they
find is passed on: nothing is assumed about them.

The two relations of this module say what is wrong without checking: `Settings.Refused` has the
problems that are explained to the user, `Settings.Unusable` the others.  Settings are opened
exactly if there is no such problem: `Command.openSettings_eq_error`.
-/

namespace DicePool

variable {fault : Fault}

/-! ### Keys and numbers -/

namespace Settings

variable {keys : List Value} {entries : List (Value × Value)} {name file : Text}

/-- The names among the keys that no setting has, each once and in order. -/
def unknownNames (keys : List Value) : List Codes :=
  ((keys.filterMap nameOf?).filter fun name => !isKnown name).eraseDups.mergeSort Codes.notAfter

theorem nameOf?_eq_none {key : Value} : nameOf? key = none ↔ ∀ name, key ≠ .text name := by
  cases key <;> simp [nameOf?]

theorem isKnownKey_of_noText {key : Value} (noText : ∀ name, key ≠ .text name) :
    isKnownKey key = false := by
  cases key with
  | text name => exact absurd rfl (noText name)
  | _ => rfl

/-- All keys are looked at in each of two checks. -/
theorem checkKeys_eq (keys : List Value) :
    checkKeys keys =
      if keys.all isKnownKey then .ok ()
      else if keys.any fun key => (nameOf? key).isNone then .error .settingNameNotText
      else .error (.unknownSettings (unknownNames keys)) := by
  have anyNameless : ((keys.filter fun key => !isKnownKey key).any fun key => (nameOf? key).isNone)
      = keys.any fun key => (nameOf? key).isNone := by
    rw [List.any_filter]
    congr
    funext key
    cases key <;> simp [isKnownKey, nameOf?]
  have names : (keys.filter fun key => !isKnownKey key).filterMap nameOf?
      = (keys.filterMap nameOf?).filter fun name => !isKnown name := by
    rw [List.filterMap_filter, List.filter_filterMap]
    congr
    funext key
    cases key <;> simp [isKnownKey, nameOf?, Option.filter]
  unfold checkKeys
  split
  · next allKnown =>
      have known : keys.all isKnownKey = true := by simpa using allKnown
      rw [if_pos known]
  · next key others unknown =>
      have wrong : ¬keys.all isKnownKey = true := by
        intro known
        have allKnown : (keys.filter fun key => !isKnownKey key) = [] := by simpa using known
        exact List.cons_ne_nil key others (unknown.symm.trans allKnown)
      rw [if_neg wrong, ← unknown]
      dsimp only
      rw [anyNameless, names, unknownNames]

theorem checkKeys_eq_ok {done : Unit} :
    checkKeys keys = .ok done ↔ ∀ key ∈ keys, isKnownKey key = true := by
  rw [checkKeys_eq, ← List.all_eq_true]
  split
  · next known => simp [known]
  · next wrong =>
      simp only [wrong, Bool.false_eq_true, iff_false]
      split <;> simp

/-- Keys are refused because one is no text, or else because some are unknown. -/
theorem checkKeys_eq_error :
    checkKeys keys = .error fault ↔
      (∃ key ∈ keys, ∀ name, key ≠ .text name) ∧ fault = .settingNameNotText ∨
      (∀ key ∈ keys, ∃ name, key = .text name) ∧ (∃ key ∈ keys, isKnownKey key = false) ∧
        fault = .unknownSettings (unknownNames keys) := by
  have nameless : (keys.any fun key => (nameOf? key).isNone) = true ↔
      ∃ key ∈ keys, ∀ name, key ≠ .text name := by
    simp only [List.any_eq_true, Option.isNone_iff_eq_none, nameOf?_eq_none]
  have texts : (¬∃ key ∈ keys, ∀ name, key ≠ .text name) ↔
      ∀ key ∈ keys, ∃ name, key = .text name := by
    simp only [not_exists, not_and, Classical.not_forall, ne_eq, Classical.not_not]
  rw [checkKeys_eq]
  split
  · next known =>
      have known : ∀ key ∈ keys, isKnownKey key = true := List.all_eq_true.mp known
      have noneUnknown : ¬∃ key ∈ keys, isKnownKey key = false := by
        rintro ⟨key, mem, unknown⟩
        exact Bool.false_ne_true (unknown.symm.trans (known key mem))
      have noneNameless : ¬∃ key ∈ keys, ∀ name, key ≠ .text name := by
        rintro ⟨key, mem, noText⟩
        exact noneUnknown ⟨key, mem, isKnownKey_of_noText noText⟩
      simp [noneUnknown, noneNameless]
  · next wrong =>
      have unknown : ∃ key ∈ keys, isKnownKey key = false := by simpa using wrong
      split
      · next someNameless =>
          have someNameless := nameless.mp someNameless
          simp only [someNameless, ← texts, not_true_eq_false, true_and, false_and, or_false,
            Except.error.injEq]
          exact eq_comm
      · next noneNameless =>
          rw [nameless] at noneNameless
          simp only [noneNameless, ← texts, not_false_eq_true, unknown, true_and, false_and,
            false_or, Except.error.injEq]
          exact eq_comm

/-- A file has a value for a setting that counts, and it is not a number. -/
def NotWhole (entries : List (Value × Value)) (name : Text) : Prop :=
  ∃ value, lookUp entries name = some value ∧ Whole.ofValue? value = none

theorem whole_eq_error {default : Whole} :
    whole entries name default = .error fault ↔
      NotWhole entries name ∧ fault = .settingNotInteger name := by
  unfold whole NotWhole
  split
  · next missing => simp [missing]
  · next value found =>
      split
      · next counts => simp [found, counts]
      · next wrong => simp [found, wrong, eq_comm]

theorem exists_whole_iff {default : Whole} :
    (∃ found, whole entries name default = .ok found) ↔ ¬NotWhole entries name := by
  unfold whole NotWhole
  split
  · next missing => simp [missing]
  · next value found =>
      split
      · next counts => simp [found, counts]
      · next wrong => simp [found, wrong]

/-- The settings that count, in the order in which they are checked. -/
def countNames : List Text :=
  [maxExplosionsName, defaultSidesName]

/-- Entries are refused because of their keys, or else because of the first setting that should
count and does not. -/
theorem ofEntries_eq_error :
    ofEntries entries = .error fault ↔
      checkKeys (entries.map Prod.fst) = .error fault ∨
      (∀ key ∈ entries.map Prod.fst, isKnownKey key = true) ∧ ∃ name ∈ countNames,
        NotWhole entries name ∧ (NotWhole entries maxExplosionsName → name = maxExplosionsName) ∧
          fault = .settingNotInteger name := by
  unfold ofEntries
  simp only [except_bind_eq_error, whole_eq_error, checkKeys_eq_ok, exists_const, exists_and_right,
    exists_whole_iff, pure, Except.pure, reduceCtorEq, and_false, exists_false, or_false]
  refine or_congr_right (and_congr_right fun _ => ?_)
  constructor
  · rintro (⟨wrong, rfl⟩ | ⟨right, wrong, rfl⟩)
    · exact ⟨maxExplosionsName, by simp [countNames], wrong, fun _ => rfl, rfl⟩
    · exact ⟨defaultSidesName, by simp [countNames], wrong, fun wrong => absurd wrong right, rfl⟩
  · rintro ⟨name, mem, wrong, first, rfl⟩
    by_cases alsoWrong : NotWhole entries maxExplosionsName
    · rw [first alsoWrong]
      exact .inl ⟨alsoWrong, rfl⟩
    · simp only [countNames, List.mem_cons, List.not_mem_nil, or_false] at mem
      rcases mem with rfl | rfl
      · exact absurd wrong alsoWrong
      · exact .inr ⟨alsoWrong, wrong, rfl⟩

theorem ofValue_eq_error {value : Value} :
    ofValue file value = .error fault ↔
      (value ≠ .null ∧ ∀ entries, value ≠ .mapping entries) ∧ fault = .settingsNotMapping file ∨
      ∃ entries, value = .mapping entries ∧ ofEntries entries = .error fault := by
  unfold ofValue
  split
  · simp
  · next entries => simp
  · next notNull notMapping =>
      have notNull : value ≠ .null := notNull
      have noEntries : ∀ entries, value ≠ .mapping entries := notMapping
      simp [notNull, noEntries, eq_comm]

/-! ### Files -/

section

variable (load : Loader) (read : Text → Except Fault Text)

/-- The value that is loaded from the file with this path. -/
def Holds (file : Text) (value : Value) : Prop :=
  ∃ text, read file = .ok text ∧ load text = .ok value

/-- What is wrong with the settings and is not explained. -/
inductive Unusable : Given Text → Fault → Prop where
  /-- The arguments have two dashes in the place of a path. -/
  | void : Unusable .void .optionWithoutValue
  /-- A file that cannot be opened, for a reason that is not one of the system. -/
  | file {file : Text} {fault : Fault} (closed : read file = .error fault)
      (unexplained : fault.kind.isExplained = false) :
      Unusable (.value file) fault
  /-- A text in which the loader finds a fault. -/
  | text {file text : Text} {reason : LoadFault} (opened : read file = .ok text)
      (malformed : load text = .error reason) :
      Unusable (.value file) (.notLoaded reason)
  /-- A key that is not a text. -/
  | key {file : Text} {entries : List (Value × Value)} {key : Value}
      (holds : Holds load read file (.mapping entries)) (mem : key ∈ entries.map Prod.fst)
      (noText : ∀ name, key ≠ .text name) :
      Unusable (.value file) .settingNameNotText

/-- What is wrong with the settings and is explained. -/
inductive Refused : Given Text → Fault → Prop where
  /-- A file that the system cannot open. -/
  | file {file : Text} {fault : Fault} (closed : read file = .error fault)
      (explained : fault.kind.isExplained = true) :
      Refused (.value file) fault
  /-- A file with something in it that is not a mapping. -/
  | value {file : Text} {value : Value} (holds : Holds load read file value)
      (something : value ≠ .null) (noMapping : ∀ entries, value ≠ .mapping entries) :
      Refused (.value file) (.settingsNotMapping file)
  /-- Keys that are texts, but not all of them names of settings. -/
  | keys {file : Text} {entries : List (Value × Value)} {key : Value}
      (holds : Holds load read file (.mapping entries))
      (texts : ∀ key ∈ entries.map Prod.fst, ∃ name, key = .text name)
      (mem : key ∈ entries.map Prod.fst) (unknown : isKnownKey key = false) :
      Refused (.value file) (.unknownSettings (unknownNames (entries.map Prod.fst)))
  /-- A setting that should count and does not. The number of explosions is looked at first. -/
  | number {file name : Text} {entries : List (Value × Value)}
      (holds : Holds load read file (.mapping entries))
      (known : ∀ key ∈ entries.map Prod.fst, isKnownKey key = true) (counts : name ∈ countNames)
      (wrong : NotWhole entries name)
      (first : NotWhole entries maxExplosionsName → name = maxExplosionsName) :
      Refused (.value file) (.settingNotInteger name)

end

variable {load : Loader} {read : Text → Except Fault Text} {given : Given Text}

theorem Unusable.not_explained (unusable : Unusable load read given fault) :
    fault.kind.isExplained = false := by
  cases unusable with
  | file _ unexplained => exact unexplained
  | @text _ _ reason => cases reason <;> rfl
  | void | key => rfl

theorem Refused.explained (refused : Refused load read given fault) :
    fault.kind.isExplained = true := by
  cases refused with
  | file _ explained => exact explained
  | value | keys | number => rfl

end Settings

namespace Command

variable {load : Loader} {read : Text → Except Fault Text} {given : Given Text} {file : Text}

/-- What is loaded from a file decides whether it can be opened as settings. -/
theorem openSettings_of_holds {value : Value} (holds : Settings.Holds load read file value) :
    openSettings load read (.value file) = Settings.ofValue file value := by
  obtain ⟨text, opened, loaded⟩ := holds
  simp only [openSettings, Settings.ofText, opened, except_ok_bind, loaded, Except.mapError]

/-- The stages in which a settings file is opened. -/
theorem openSettings_value_eq_error :
    openSettings load read (.value file) = .error fault ↔
      read file = .error fault ∨
      (∃ text reason, read file = .ok text ∧ load text = .error reason ∧
        fault = .notLoaded reason) ∨
      ∃ value, Settings.Holds load read file value ∧
        Settings.ofValue file value = .error fault := by
  have loads : ∀ text, (load text).mapError Fault.notLoaded = .error fault ↔
      ∃ reason, load text = .error reason ∧ fault = .notLoaded reason := by
    intro text
    cases load text <;> simp [Except.mapError, eq_comm]
  have loaded : ∀ text value, (load text).mapError Fault.notLoaded = .ok value ↔
      load text = .ok value := by
    intro text value
    cases load text <;> simp [Except.mapError]
  simp only [openSettings, Settings.ofText, except_bind_eq_error, loads, loaded]
  constructor
  · rintro (closed | ⟨text, opened, ⟨reason, malformed, rfl⟩ | ⟨value, found, failed⟩⟩)
    · exact .inl closed
    · exact .inr (.inl ⟨text, reason, opened, malformed, rfl⟩)
    · exact .inr (.inr ⟨value, ⟨text, opened, found⟩, failed⟩)
  · rintro (closed | ⟨text, reason, opened, malformed, rfl⟩ |
      ⟨value, ⟨text, opened, found⟩, failed⟩)
    · exact .inl closed
    · exact .inr ⟨text, opened, .inl ⟨reason, malformed, rfl⟩⟩
    · exact .inr ⟨text, opened, .inr ⟨value, found, failed⟩⟩

/-- The settings cannot be opened exactly if something is wrong with them, and the fault says
what. -/
theorem openSettings_eq_error :
    openSettings load read given = .error fault ↔
      Settings.Unusable load read given fault ∨ Settings.Refused load read given fault := by
  constructor
  · intro failed
    cases given with
    | absent => contradiction
    | void =>
        cases failed
        exact .inl .void
    | value file =>
        rcases openSettings_value_eq_error.mp failed with
          closed | ⟨text, reason, opened, malformed, rfl⟩ | ⟨value, holds, failed⟩
        · cases explained : fault.kind.isExplained with
          | false => exact .inl (.file closed explained)
          | true => exact .inr (.file closed explained)
        · exact .inl (.text opened malformed)
        rcases Settings.ofValue_eq_error.mp failed with
          ⟨⟨something, noMapping⟩, rfl⟩ | ⟨entries, rfl, failed⟩
        · exact .inr (.value holds something noMapping)
        rcases Settings.ofEntries_eq_error.mp failed with
          failed | ⟨known, name, counts, wrong, first, rfl⟩
        · rcases Settings.checkKeys_eq_error.mp failed with
            ⟨⟨key, mem, noText⟩, rfl⟩ | ⟨texts, ⟨key, mem, unknown⟩, rfl⟩
          · exact .inl (.key holds mem noText)
          · exact .inr (.keys holds texts mem unknown)
        · exact .inr (.number holds known counts wrong first)
  · rintro (unusable | refused)
    · cases unusable with
      | void => rfl
      | file closed => exact openSettings_value_eq_error.mpr (.inl closed)
      | text opened malformed =>
          exact openSettings_value_eq_error.mpr (.inr (.inl ⟨_, _, opened, malformed, rfl⟩))
      | key holds mem noText =>
          have failed := Settings.checkKeys_eq_error.mpr (.inl ⟨⟨_, mem, noText⟩, rfl⟩)
          exact (openSettings_of_holds holds).trans (Settings.ofEntries_eq_error.mpr (.inl failed))
    · cases refused with
      | file closed => exact openSettings_value_eq_error.mpr (.inl closed)
      | value holds something noMapping =>
          have wrong := And.intro something noMapping
          exact (openSettings_of_holds holds).trans
            (Settings.ofValue_eq_error.mpr (.inl ⟨wrong, rfl⟩))
      | keys holds texts mem unknown =>
          have failed := Settings.checkKeys_eq_error.mpr (.inr ⟨texts, ⟨_, mem, unknown⟩, rfl⟩)
          exact (openSettings_of_holds holds).trans (Settings.ofEntries_eq_error.mpr (.inl failed))
      | number holds known counts wrong first =>
          have failed :=
            Settings.ofEntries_eq_error.mpr (.inr ⟨known, _, counts, wrong, first, rfl⟩)
          exact (openSettings_of_holds holds).trans failed

end Command

/-! ### Folders -/

theorem Place.kind_of_follow_eq_error {path : Text} {place : Place} {steps : List Text}
    (failed : place.follow path steps = .error fault) : fault.kind = .unopenedFile := by
  fun_induction Place.follow path place steps with
  | case1 => contradiction
  | case2 =>
      cases failed
      rfl
  | case3 _ _ _ _ ih => exact ih failed
  | case4 _ _ _ _ _ ih => exact ih failed
  | case5 =>
      cases failed
      rfl
  | case6 _ _ _ _ _ _ _ _ _ ih => exact ih failed
  | case7 =>
      cases failed
      rfl

/-- Of the files of a folder that cannot be opened, all are explained but those in whose name no
file can be stored. -/
theorem Folder.isExplained_of_read_eq_error {folder : Folder} {file : Text}
    (closed : folder.read file = .error fault) :
    fault.kind.isExplained = !file.contains (Char.ofNat 0) := by
  unfold Folder.read at closed
  split at closed
  · next nul =>
      cases closed
      rw [nul]
      rfl
  next storable =>
  have unopened : fault.kind = .unopenedFile := by
    split at closed
    · cases closed
      rfl
    split at closed
    · cases closed
      rfl
    dsimp only at closed
    split at closed
    · contradiction
    · cases closed
      rfl
    · next failed =>
        cases closed
        exact Place.kind_of_follow_eq_error failed
  rw [unopened, Bool.eq_false_iff.mpr storable]
  rfl

end DicePool
