/-
Module: DicePool.Fault
Purpose: Every reason for which a text, a die, a pool or a setting is refused.
Main exports: LoadFault, Fault, FaultKind, Fault.kind, FaultKind.isNamed, FaultKind.isExplained,
  Fault.wording, Fault.message, Fault.raised
-/
import DicePool.Text.Codes
import DicePool.Text.Numeral
import DicePool.Text.Quoted

/-!
A fault is the cause of a refusal, with the values that its wording quotes.
`Fault.kind` sorts the causes.  Four kinds are about dice and settings, and are
explained to the user by `Fault.message`, as is a file that cannot be opened.  The
other kinds are conversions and look-ups that nobody explains; their message is empty.

A message is given by its codes, since the names of unknown settings need not be texts.
It is put into words as soon as the fault comes up.  So where a number that it quotes is
too long to be written, that is the fault instead: `Fault.raised`.
-/

namespace DicePool

/-- The sorts of refusal. -/
inductive FaultKind where
  /-- The text is not a dice expression, or not a die. -/
  | unreadable
  /-- A modifier is not one of those that exist. -/
  | unsupported
  /-- A number lies outside its range. -/
  | outOfRange
  /-- The pieces are legal, but what they make has no sensible roll. -/
  | unrollable
  /-- A file that cannot be opened. -/
  | unopenedFile
  /-- A value of the right type that cannot be converted. -/
  | badValue
  /-- An expression of which some number cannot be converted. -/
  | unconverted
  /-- A division by zero. -/
  | noQuotient
  /-- A settings file that its reader does not understand. -/
  | malformed
  /-- A number that does not even fit in a machine word. -/
  | tooGreat
  /-- A value of the wrong type. -/
  | badType
  /-- No entry of this name. -/
  | missingName
  /-- An index outside its list. -/
  | missingIndex
  /-- A question that this sort of node does not answer. -/
  | unanswerable
deriving Repr, DecidableEq

/-- Whether the kind is one of the four about dice and settings. -/
def FaultKind.isNamed : FaultKind → Bool
  | .unreadable | .unsupported | .outOfRange | .unrollable => true
  | _ => false

/-- Whether faults of the kind are explained to the user. -/
def FaultKind.isExplained (kind : FaultKind) : Bool :=
  kind.isNamed || kind == .unopenedFile

/-- The sorts of fault of whoever reads settings files. -/
inductive LoadFault where
  | malformed
  /-- A word that is spelled like a value and stands for none. -/
  | badValue
  | tooGreat
deriving Repr, DecidableEq

/-- The causes of refusal. -/
inductive Fault where
  /-- The whole text is not an expression. -/
  | unreadableExpression (text : Text)
  /-- From `rest` on, a modifier was due and this is none. -/
  | unreadableModifier (rest : Text)
  /-- The text does not describe a die. -/
  | unreadableDie (text : Text)
  /-- A die text with a digit mark that has no place in a numeral. -/
  | decoratedDigit (text : Text)
  /-- A number that has too many digits to be read or written. -/
  | numberTooLong
  /-- The text is an expression, but one of its numbers has too many digits. -/
  | unconvertedNumber
  /-- A die without faces was to show one. -/
  | noFaces
  /-- The result of a division by zero was asked for. -/
  | dividedByZero
  | tooFewSides (sides : Int)
  | quantityNotPositive (quantity : Int)
  | unknownOperator (operator : Text)
  | negativeOperand (value : Int)
  | divisionByZero
  | unknownSelection (operator : Text)
  /-- Only a pool with something in it has dice to drop or keep. -/
  | notAPool (inner : Text)
  | thresholdNotPositive (threshold : Int)
  | thresholdTooLarge (count : Nat) (threshold : Int)
  | unknownComparison (comparison : Text)
  | negativeLimit (limit : Int)
  | emptyPool
  /-- Some die of the pool matches whatever it shows. -/
  | endlessExplosion (pool comparison : Text) (threshold : Int)
  /-- No die of the pool can match. -/
  | deadExplosion (pool comparison : Text) (threshold : Int)
  /-- Some die of the pool may match below zero. -/
  | negativeExplosion (pool comparison : Text) (threshold : Int)
  | settingsNotMapping (file : Text)
  | unknownSettings (names : List Codes)
  /-- A setting that does not exist and whose name is not even a text. -/
  | settingNameNotText
  | settingNotInteger (name : Text)
  | noSuchFile (file : Text)
  | fileNameTooLong (file : Text)
  | isDirectory (file : Text)
  /-- The path goes through a file as if it were a directory. -/
  | notDirectory (file : Text)
  /-- A name in which no file can be stored. -/
  | unusableFileName
  | unknownLogLevel (name : Codes)
  /-- A logging level that is neither a name nor a number. -/
  | logLevelNotLevel
  /-- A settings file that could not be loaded. -/
  | notLoaded (reason : LoadFault)
  /-- An option whose value is needed but was not given. -/
  | optionWithoutValue
  | noSuchNode (name : String)
  | noSuchChild (index : Int)
  /-- Only a pool has items. -/
  | hasNoItems
  /-- The node does not have what is asked of it. -/
  | notAnswered
  /-- A description lacks a part that is needed. -/
  | missingPart
deriving Repr, DecidableEq

namespace Fault

/-- The sort of each cause. -/
def kind : Fault → FaultKind
  | unreadableExpression _ | unreadableDie _ => .unreadable
  | unreadableModifier _ | unknownOperator _ => .unsupported
  | tooFewSides _ | quantityNotPositive _ | negativeOperand _ | divisionByZero
  | negativeLimit _ | settingsNotMapping _ | unknownSettings _ | settingNotInteger _ =>
      .outOfRange
  | unknownSelection _ | notAPool _ | thresholdNotPositive _ | thresholdTooLarge _ _
  | unknownComparison _ | emptyPool | endlessExplosion _ _ _ | deadExplosion _ _ _
  | negativeExplosion _ _ _ => .unrollable
  | decoratedDigit _ | numberTooLong | noFaces | unknownLogLevel _ | unusableFileName
  | notLoaded .badValue => .badValue
  | notLoaded .malformed => .malformed
  | notLoaded .tooGreat => .tooGreat
  | unconvertedNumber => .unconverted
  | dividedByZero => .noQuotient
  | settingNameNotText | logLevelNotLevel | optionWithoutValue | hasNoItems => .badType
  | noSuchFile _ | fileNameTooLong _ | isDirectory _ | notDirectory _ => .unopenedFile
  | noSuchNode _ | missingPart => .missingName
  | noSuchChild _ => .missingIndex
  | notAnswered => .unanswerable

/-- A text between the marks that set off a quotation. -/
def quoted (s : Text) : String :=
  "`" ++ String.ofList s ++ "`"

/-- An integer between the marks that set off a quotation. -/
def quotedInt (n : Int) : String :=
  quoted (Numeral.ofInt n)

/-- The comparison and threshold of an explosion, as they are written. -/
def quotedCondition (comparison : Text) (threshold : Int) : String :=
  quoted (comparison ++ Numeral.ofInt threshold)

/-- How each cause is explained, up to the names of unknown settings. -/
def wording : Fault → String
  | unreadableExpression text =>
      "the submitted expression " ++ quoted text ++ " is invalid or not supported"
  | unreadableModifier rest =>
      "the submitted modifier " ++ quoted rest ++ " is invalid or not supported"
  | unreadableDie text => "the submitted die format " ++ quoted text ++ " is invalid"
  | tooFewSides sides =>
      "Your die must have at least 2 sides, " ++ String.ofList (Numeral.ofInt sides) ++ " given"
  | quantityNotPositive quantity =>
      "The quantity of dice " ++ quotedInt quantity ++ " is not valid. Should be > 0"
  | unknownOperator operator => "Invalid or Unsupported operator " ++ quoted operator
  | negativeOperand value => "The submitted value " ++ quotedInt value ++ " is invalid"
  | divisionByZero => "Division by zero is not supported"
  | unknownSelection operator =>
      "Unknown or unsupported sortable algorithm " ++ quoted operator
  | notAPool inner => "The inner rollable " ++ quoted inner ++ " is not a dice pool"
  | thresholdNotPositive threshold =>
      "The threshold " ++ quotedInt threshold ++ " must be greater than 0"
  | thresholdTooLarge count threshold =>
      "The number of rollable objects " ++ quotedInt count
        ++ " MUST be greater or equal than the threshold value " ++ quotedInt threshold
  | unknownComparison comparison =>
      "The comparison " ++ quoted comparison ++ " is not valid or supported"
  | negativeLimit limit =>
      "The explosion limit " ++ quotedInt limit ++ " must be positive or zero"
  | emptyPool => "The submitted pool can not be empty"
  | endlessExplosion pool comparison threshold =>
      "This pool " ++ quoted pool ++ " will explode indefinitely with "
        ++ quotedCondition comparison threshold
  | deadExplosion pool comparison threshold =>
      "This pool " ++ quoted pool ++ " can never explode with "
        ++ quotedCondition comparison threshold
  | negativeExplosion pool comparison threshold =>
      "This pool " ++ quoted pool ++ " can explode on a negative value with "
        ++ quotedCondition comparison threshold
  | settingsNotMapping file =>
      "settings file " ++ String.ofList file ++ " must hold a mapping"
  | unknownSettings _ => "unknown settings: "
  | settingNotInteger name => "setting " ++ String.ofList name ++ " must be an integer"
  | noSuchFile file =>
      "[Errno 2] No such file or directory: " ++ String.ofList (Text.quoted file)
  | notDirectory file => "[Errno 20] Not a directory: " ++ String.ofList (Text.quoted file)
  | isDirectory file => "[Errno 21] Is a directory: " ++ String.ofList (Text.quoted file)
  | fileNameTooLong file =>
      "[Errno 36] File name too long: " ++ String.ofList (Text.quoted file)
  | _ => ""

/-- The codes that follow the wording: the names of unknown settings. -/
def names : Fault → Codes
  | unknownSettings names => (Codes.ofString ", ").intercalate names
  | _ => []

/-- The explanation that is shown to the user. -/
def message (fault : Fault) : Codes :=
  Codes.ofString fault.wording ++ fault.names

/-- The numbers that the wording quotes. -/
def numbers : Fault → List Int
  | tooFewSides n | quantityNotPositive n | negativeOperand n | thresholdNotPositive n
  | negativeLimit n => [n]
  | thresholdTooLarge count threshold => [count, threshold]
  | endlessExplosion _ _ threshold | deadExplosion _ _ threshold
  | negativeExplosion _ _ threshold => [threshold]
  | _ => []

/-- What becomes of a fault when it is put into words. -/
def raised (fault : Fault) : Fault :=
  if fault.numbers.all Numeral.isWritable then fault else .numberTooLong

end Fault

end DicePool
