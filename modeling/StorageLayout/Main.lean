import StorageLayout.CommandLine.Session
import StorageLayout.FileTree.Changes

/-!
# The Program

The command line program around `CommandLine.run`.

The working folder is read into a tree, the run works on the tree, and its changes are carried
out. Nothing is decided here.
-/

namespace StorageLayout.Program

/-- How many folders deep the working folder is read. -/
def deepest : Nat := 256

/-- Reads an entry of a folder and what is below it. -/
def readEntry : (depth : Nat) → IO.FS.DirEntry → IO FileTree
  | 0, _ => return .empty
  | depth + 1, entry => do
    if ← entry.path.isDir then
      let below ← entry.path.readDir
      let entries ← below.toList.mapM fun e => do
        let t ← readEntry depth e
        return (e.fileName, t)
      return .folder entries
    else
      let bytes ← IO.FS.readBinFile entry.path
      return .file bytes.toList

/-- Reads the working folder. -/
def readWorkingFolder : IO FileTree := do
  let top ← IO.FS.realPath "."
  let entries ← (← top.readDir).toList.mapM fun e => do
    let t ← readEntry deepest e
    return (e.fileName, t)
  return .folder entries

/-- Carries a change out. -/
def carryOut (change : FileTree.Change) : IO Unit :=
  let path (names : List String) : String := "/".intercalate ("." :: names)
  match change with
  | .write names bytes => IO.FS.writeBinFile (path names) ⟨bytes.toArray⟩
  | .makeFolder names => IO.FS.createDirAll (path names)
  | .removeFile names => IO.FS.removeFile (path names)
  | .removeFolder names => IO.FS.removeDirAll (path names)

/-- The names of the variables, besides those of the options, that compile commands are likely to
use. -/
def usedVariables : List String :=
  ["PATH", "HOME", "USER", "LANG", "LC_ALL", "TERM", "TMPDIR", "SHELL", "IFS", "ENV", "OLDPWD"]

/-- Reads the part of the environment that matters. -/
def readEnvironment : IO (Assoc String String) := do
  let contexts := CommandLine.Context.program :: CommandLine.Command.all.map .command
  let names := contexts.flatMap fun c => c.options.map c.environmentName
  let values ← (names ++ usedVariables).mapM fun name => do
    let value ← IO.getEnv name
    return value.map fun v => (name, v)
  return values.filterMap id

/-- Runs the program. -/
def run (words : List String) : IO UInt32 := do
  let before ← readWorkingFolder
  let environment ← readEnvironment
  let outcome := CommandLine.run before environment words
  IO.print outcome.output
  IO.eprint outcome.errors
  (before.changes outcome.files).forM carryOut
  return outcome.status.toUInt32

end StorageLayout.Program

/-- The program. -/
def main (words : List String) : IO UInt32 := StorageLayout.Program.run words
