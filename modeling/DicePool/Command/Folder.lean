/-
Module: DicePool.Command.Folder
Purpose: The files that a command can open: those of one folder, by their paths.
Main exports: Folder, Place, Place.follow, Folder.read
-/
import DicePool.Fault

/-!
A path is followed step by step, and the first step that leads nowhere decides why the
file cannot be opened.  A name is judged where it is looked up, so a name that is too
long does no harm behind one that does not exist; the length of the whole path counts
before any step.
-/

namespace DicePool

/-- The files of a folder without subfolders, by name. -/
abbrev Folder := List (Text × Text)

/-- What a path leads to. -/
inductive Place where
  | file (content : Text)
  /-- A directory, with what is known to be in it. -/
  | directory (entries : List (Text × Place))
deriving Repr

namespace Place

/-- The longest name that something in a directory can have, in bytes. -/
def longestName : Nat := 255

/-- The longest path that can be followed, in bytes. -/
def longestPath : Nat := 4095

/-- The number of bytes of a text where it is stored. -/
def byteCount (s : Text) : Nat :=
  s.foldl (fun count c => count + c.utf8Size) 0

/-- A directory of which only its existence is known. -/
def unknown : Place :=
  directory []

/-- The directories at the root of every system. -/
def rootNames : List Text :=
  ["bin", "boot", "dev", "etc", "home", "lib", "media", "mnt", "opt", "proc", "root", "run",
   "sbin", "srv", "sys", "tmp", "usr", "var"].map String.toList

/-- The root, with the one device that reads as an empty file. -/
def root : Place :=
  .directory (rootNames.map fun name =>
    if name = "dev".toList then (name, .directory [("null".toList, .file [])])
    else (name, unknown))

/-- Follows the steps of `path` that are left. An empty step and a single dot stay in
the directory, and two dots leave it. -/
def follow (path : Text) : Place → List Text → Except Fault Place
  | place, [] => .ok place
  | file _, _ :: _ => .error (.notDirectory path)
  | directory entries, step :: rest =>
      if step.isEmpty || step == ['.'] then follow path (directory entries) rest
      else if step == ['.', '.'] then follow path unknown rest
      else if byteCount step > longestName then .error (.fileNameTooLong path)
      else
        match entries.find? (·.1 == step) with
        | some (_, place) => follow path place rest
        | none => .error (.noSuchFile path)

end Place

namespace Folder

/-- The folder as a place. -/
def place (folder : Folder) : Place :=
  .directory (folder.map fun (name, content) => (name, .file content))

/-- The content of the file with this path. Of the world outside the folder little is
known, and what is not known counts as missing. -/
def read (folder : Folder) (path : Text) : Except Fault Text :=
  if path.contains (Char.ofNat 0) then .error .unusableFileName
  else if path.isEmpty then .error (.noSuchFile path)
  else if Place.byteCount path > Place.longestPath then .error (.fileNameTooLong path)
  else
    let start := if path.head? = some '/' then Place.root else folder.place
    match Place.follow path start (Text.fields '/' path) with
    | .ok (.file content) => .ok content
    | .ok (.directory _) => .error (.isDirectory path)
    | .error fault => .error fault

end Folder

end DicePool
