/-
Module: DicePool.Settings
Purpose: The settings of the command line: their defaults, and a file that overrides them.
Main exports: Whole, Settings, Settings.default, Settings.ofText, Settings.logLevel?
-/
import DicePool.Settings.Value

namespace DicePool

/-- A setting that counts something. Yes and no count as one and zero, and keep
their names. -/
inductive Whole where
  | number (value : Int)
  | flag (value : Bool)
deriving Repr, DecidableEq

namespace Whole

/-- The number that counts. -/
def value : Whole → Int
  | number value => value
  | flag true => 1
  | flag false => 0

/-- The setting as it is written behind the die letter, unless it is too long. -/
def spelling? : Whole → Option Text
  | number value => Numeral.write? value
  | flag true => some ['T', 'r', 'u', 'e']
  | flag false => some ['F', 'a', 'l', 's', 'e']

/-- The values that can be counted with. -/
def ofValue? : Value → Option Whole
  | .integer value => some (.number value)
  | .flag value => some (.flag value)
  | _ => none

end Whole

/-- The settings of the command line. -/
structure Settings where
  maxExplosions : Whole
  defaultSides : Whole
  logLevel : Value
  trace : Value
deriving Repr

namespace Settings

/-- The settings without a file. -/
def default : Settings where
  maxExplosions := .number 100
  defaultSides := .number 6
  logLevel := .text (Codes.ofString "WARNING")
  trace := .flag false

/-- Names the number of explosions of one die, at most. -/
def maxExplosionsName : Text := "max_explosions".toList

/-- Names the number of sides of dice that are written without a face. -/
def defaultSidesName : Text := "default_sides".toList

/-- Names the level from which on the log is written. -/
def logLevelName : Text := "log_level".toList

/-- Names the setting that logs every evaluation step. -/
def traceName : Text := "trace".toList

/-- The names of all settings. -/
def knownNames : List Text :=
  [maxExplosionsName, defaultSidesName, logLevelName, traceName]

/-- Whether there is a setting of this name. -/
def isKnown (name : Codes) : Bool :=
  (knownNames.map Codes.ofText).contains name

/-- Whether a value is the name of a setting. -/
def isKnownKey : Value → Bool
  | .text name => isKnown name
  | _ => false

/-- The name, if a value is a text. -/
def nameOf? : Value → Option Codes
  | .text name => some name
  | _ => none

/-- The value of a name in a mapping. Of several the last counts. -/
def lookUp (entries : List (Value × Value)) (name : Text) : Option Value :=
  (entries.reverse.find? fun entry => nameOf? entry.1 == some (Codes.ofText name)).map (·.2)

/-- Refuses keys that are not names of settings. A key that is not even a text
cannot be named in the refusal. -/
def checkKeys (keys : List Value) : Except Fault Unit :=
  match keys.filter fun key => !isKnownKey key with
  | [] => .ok ()
  | key :: others =>
      let unknown := key :: others
      if unknown.any fun key => (nameOf? key).isNone then .error .settingNameNotText
      else .error (.unknownSettings
        ((unknown.filterMap nameOf?).eraseDups.mergeSort Codes.notAfter))

/-- A setting that counts, from a file or by default. -/
def whole (entries : List (Value × Value)) (name : Text) (default : Whole) :
    Except Fault Whole :=
  match lookUp entries name with
  | none => .ok default
  | some value =>
      match Whole.ofValue? value with
      | some whole => .ok whole
      | none => .error (.settingNotInteger name)

/-- The settings of a mapping. -/
def ofEntries (entries : List (Value × Value)) : Except Fault Settings := do
  checkKeys (entries.map (·.1))
  let maxExplosions ← whole entries maxExplosionsName default.maxExplosions
  let defaultSides ← whole entries defaultSidesName default.defaultSides
  return {
    maxExplosions, defaultSides
    logLevel := (lookUp entries logLevelName).getD default.logLevel
    trace := (lookUp entries traceName).getD default.trace }

/-- The settings of a value. Nothing at all changes nothing. -/
def ofValue (file : Text) : Value → Except Fault Settings
  | .null => .ok default
  | .mapping entries => ofEntries entries
  | _ => .error (.settingsNotMapping file)

/-- The settings of a file with this text. -/
def ofText (load : Loader) (file text : Text) : Except Fault Settings := do
  let value ← (load text).mapError .notLoaded
  ofValue file value

/-- The levels with names. -/
def namedLevels : List (String × Int) :=
  [("CRITICAL", 50), ("FATAL", 50), ("ERROR", 40), ("WARN", 30), ("WARNING", 30),
   ("INFO", 20), ("DEBUG", 10), ("NOTSET", 0)]

/-- The level of the log. Nothing leaves it where it is, at warnings. -/
def logLevel? : Value → Except Fault Int
  | .null => .ok 30
  | .integer level => .ok level
  | .flag value => .ok (Whole.flag value).value
  | .text name =>
      match namedLevels.find? (Codes.ofString ·.1 == name) with
      | some (_, level) => .ok level
      | none => .error (.unknownLogLevel name)
  | _ => .error .logLevelNotLevel

end Settings

end DicePool
