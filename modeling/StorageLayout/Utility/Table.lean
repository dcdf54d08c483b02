import StorageLayout.Utility.Columns
import StorageLayout.Utility.Comparing
import StorageLayout.Utility.Copy
import StorageLayout.Utility.Editor
import StorageLayout.Utility.Encoding
import StorageLayout.Utility.Expression
import StorageLayout.Utility.Files
import StorageLayout.Utility.Finding
import StorageLayout.Utility.Grep
import StorageLayout.Utility.Running

/-!
# All Programs

## Main definitions

* `quietUntilDone`, `speakingThroughout`: The programs, by when they write.
* `utility?`: The program of a name.
-/

namespace StorageLayout.Shell

open Utility

/-- A program with nothing but a status. -/
def constantly (n : Nat) : Utility := fun _ _ => return n

/-- The programs that write when they are over. -/
def quietUntilDone : List (String × Utility) :=
  [("[", checkCondition true), ("base64", encodeBase64), ("basename", stripFolders),
    ("chgrp", constantly 0), ("chmod", changeModes), ("chown", constantly 0),
    ("cksum", checksumFiles), ("cmp", compareOctets), ("comm", compareSorted),
    ("cp", copyFiles), ("cut", cutLines), ("date", writeDate), ("diff", compareLines),
    ("dirname", stripName), ("echo", writeWords), ("egrep", matchLines true false),
    ("expr", evaluate), ("false", constantly 1), ("fgrep", matchLines false true),
    ("fold", foldLines), ("grep", matchLines false false), ("head", showStart),
    ("id", writeUser), ("ln", makeLinks), ("ls", listFolders), ("mkdir", makeFolders),
    ("mktemp", makeTemporary), ("mv", moveFiles), ("nl", numberLines), ("od", dumpOctets),
    ("paste", pasteLines), ("printenv", writeVariables), ("printf", writeFormatted),
    ("pwd", writeFolder), ("readlink", readLinks), ("realpath", resolvePaths),
    ("rev", mirrorLines), ("rm", removeFiles), ("rmdir", removeFolders), ("sed", editLines),
    ("seq", writeSequence), ("sleep", wait), ("sort", sortLines), ("stat", showStatus),
    ("sync", constantly 0), ("tac", showReversed), ("tail", showEnd),
    ("test", checkCondition false), ("touch", touch), ("tr", replaceOctets),
    ("true", constantly 0), ("tty", writeTerminal), ("uname", writeSystem),
    ("uniq", mergeRepeated), ("wc", countFiles), ("which", locatePrograms),
    ("whoami", fun run _ => writeUser run ["-un"]), ("yes", repeatLine)]

/-- The programs that write as they go on, or let others write. -/
def speakingThroughout : List (String × Utility) :=
  [("cat", showFiles), ("env", runInEnvironment), ("find", findFiles), ("nice", runGently),
    ("nohup", runDetached), ("tee", copyInput), ("timeout", runLimited), ("xargs", runOnInput)]

/-- The program of a name. -/
def utility? (name : String) : Option Utility :=
  match quietUntilDone.find? (·.1 = name), speakingThroughout.find? (·.1 = name) with
  | some (_, program), _ => some (atOnce program)
  | none, some (_, program) => some program
  | none, none => none

end StorageLayout.Shell
