import StorageLayout.Shell.Builtin.Control
import StorageLayout.Shell.Builtin.Folder
import StorageLayout.Shell.Builtin.Input
import StorageLayout.Shell.Builtin.Output
import StorageLayout.Shell.Builtin.Variables
import StorageLayout.Shell.Condition

/-!
# Built-in Commands

The built-in commands that need no other commands to be run.

## Main definitions

* `testCondition`: Says whether a condition holds.
* `builtin?`: The built-in command of a name.
-/

namespace StorageLayout.Shell.Builtin

/-- Says whether a condition holds. In brackets, the last word must be the closing one. -/
def testCondition (bracketed : Bool) (arguments : List String) : Step Nat := do
  if bracketed && arguments.getLast? ≠ some "]" then fault "missing ]"
  let words := if bracketed then arguments.dropLast else arguments
  match Condition.holds (← theWorld) (← here) words with
  | .ok answer => return if answer then 0 else 1
  | .error reason => fault reason.text

/-- Refuses to bring a job to the front or to the back, where there is none. -/
def refuseJob (_ : List String) : Step Nat := fault "No current job"

/-- Writes how long commands have run, which is no time. -/
def writeTimes (_ : List String) : Step Nat := do
  say "0m0.000000s 0m0.000000s\n0m0.000000s 0m0.000000s\n"
  return 0

/-- Writes a limit, of which there is none. -/
def writeLimit (arguments : List String) : Step Nat := do
  let (_, words) ← takeOptions "HSatfdscmlpnvwr" arguments
  if words.isEmpty then say "unlimited\n"
  return 0

/-- The built-in command of a name, if it needs no other commands to be run. -/
def builtin? (name : String) : Option (List String → Step Nat) :=
  match name with
  | ":" | "true" => some fun _ => return 0
  | "false" => some fun _ => return 1
  | "[" => some (testCondition true)
  | "test" => some (testCondition false)
  | "echo" => some echo
  | "printf" => some printFormatted
  | "read" => some readLine
  | "cd" | "chdir" => some changeFolder
  | "pwd" => some printFolder
  | "umask" => some changeMask
  | "export" => some (declare "export" false)
  | "readonly" => some (declare "readonly" true)
  | "unset" => some unset
  | "local" => some makeLocals
  | "set" => some configure
  | "shift" => some shift
  | "getopts" => some getOption
  | "alias" => some nameText
  | "unalias" => some forgetText
  | "break" => some (leaveLoops .leaveLoop)
  | "continue" => some (leaveLoops .nextTurn)
  | "exit" => some exitProcess
  | "return" => some returnFrom
  | "trap" => some setTraps
  | "kill" => some sendSignal
  | "type" => some describeNames
  | "command" => some describeCommand
  | "hash" => some lookUp
  | "fg" | "bg" => some refuseJob
  | "jobs" => some fun _ => return 0
  | "times" => some writeTimes
  | "ulimit" => some writeLimit
  | _ => none

end StorageLayout.Shell.Builtin
