/-
Module: DicePool.Main
Purpose: The program: opens files, draws a seed, and prints what the command line answers.
Main exports: runCommand
-/
import DicePool.Command

namespace DicePool

/-- The code by which the system says that a directory cannot be read as a file. -/
def isDirectoryCode : UInt32 := 21

/-- The content of a file, or why it cannot be opened. -/
def openFile (file : Text) : IO (Except Fault Text) := do
  try
    let content ← IO.FS.readFile (String.ofList file)
    return .ok content.toList
  catch error =>
    match error with
    | .inappropriateType _ code _ =>
        return .error (if code = isDirectoryCode then .isDirectory file else .notDirectory file)
    | .invalidArgument .. => return .error (.fileNameTooLong file)
    | _ => return .error (.noSuchFile file)

/-- The settings file of a command line, if it names one. -/
def openSettingsFile (arguments : List Text) : IO (Except Fault Text) :=
  match Arguments.parse arguments with
  | .run { settings := .value file, .. } => openFile file
  | _ => return .ok []

/-- Rolls the expressions that are given as arguments. The settings file is read by `load`. -/
def runCommand (load : Loader) (arguments : List String) : IO UInt32 := do
  let texts := arguments.map String.toList
  let content ← openSettingsFile texts
  let seed ← IO.rand 0 0xFFFFFFFFFFFFFFFF
  match Command.run load (fun _ => content) (Draws.ofSeed (UInt64.ofNat seed)) texts with
  | .exited code =>
      let usage := "usage: EXPR [EXPR ...] [--times N] [--settings FILE] [--trace]"
      if code = 0 then IO.println usage else IO.eprintln usage
      return UInt32.ofNat code
  | .finished code output log =>
      IO.eprint log
      IO.print (String.ofList output.toText)
      return UInt32.ofNat code
  | .stopped _ output log =>
      IO.eprint log
      IO.print (String.ofList output.toText)
      IO.eprintln "the settings, the number of rolls or a number on the way cannot be used"
      return 1

end DicePool
