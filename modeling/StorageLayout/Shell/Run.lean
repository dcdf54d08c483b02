import StorageLayout.Artifacts
import StorageLayout.Shell.Execution
import StorageLayout.Text.Blank

/-!
# Running Shell Commands

What a command does to files, and what it says.

## Main definitions

* `Outcome`: What a command leaves behind.
* `run`: Runs the text of a command.
* `compileProject`: Runs a compile command, which must succeed.
-/

namespace StorageLayout.Shell

/-- What a command leaves behind. -/
structure Outcome where
  files : FileTree
  status : Nat
  output : List UInt8
  errors : List UInt8

/-- The variables that a process is handed if the environment does not have them. -/
def usualVariables : List (String × String) :=
  [("PATH", "/usr/local/bin:" ++ standardPath), ("HOME", "/root")]

/-- The variables of a shell that is started in an environment. -/
def startVariables (environment : Assoc String String) : Assoc String Variable :=
  let given := environment.map fun e => (octets e.1, octets e.2)
  let all := given ++ usualVariables.filter fun e => !Assoc.contains e.1 given
  initialVariables (Assoc.put "PWD" "/tmp/work" all)

/-- The machine on which a command is run: the first stream has nothing, the other two are
collected. -/
def startMachine (files : FileTree) (environment : Assoc String String) : Machine where
  world := .ofFiles files
  files :=
    #[{ channel := .nowhere }, { channel := .collector, readable := false },
      { channel := .collector, readable := false }]
  youngest := 4096
  process :=
    { number := 4096
      folder := FileTree.workingFolder
      streams := [(0, 0), (1, 1), (2, 2)]
      vars := startVariables environment
      name := "/bin/sh" }

/-- How many steps deep a command may go. -/
def stepLimit : Nat := 100000

/-- Runs the text of a command as a process, and the jobs that it leaves behind. -/
def runProcess (text : String) : Step Nat := do
  let n ← toTheEnd (runTrap stepLimit) do
    let _ ← runText stepLimit false text
  runDeferred stepLimit
  return n

/-- Runs the text of a command in the top folder of a tree. -/
def run (files : FileTree) (environment : Assoc String String) (text : String) : Outcome :=
  let (result, m) := (runProcess (octets text)).run.run (startMachine files environment)
  let collected (n : Nat) : List UInt8 := ((m.files[n]?).map (bytesOfOctets ·.content)).getD []
  let status := match result with
    | .ok n => n
    | .error (.killed _ signal) => 128 + signal
    | .error _ => 1
  ⟨m.world.settled, status, collected 1, collected 2⟩

/-- Runs a compile command, which must succeed: the files afterwards, and the failure. What the
command says must be text, and so must be the command itself. -/
def compileProject (files : FileTree) (environment : Assoc String String) (command : String) :
    FileTree × Except Error Unit :=
  if '\x00' ∈ command.toList then (files, Defect.badContent.fail)
  else
    let outcome := run files environment command
    let result :=
      match Artifacts.decodeText outcome.output, Artifacts.decodeText outcome.errors with
      | some _, some errors =>
        if outcome.status = 0 then .ok ()
        else .error (.compileFailed command (String.ofList (Text.trim errors)))
      | _, _ => Defect.undecodable.fail
    (outcome.files, result)

end StorageLayout.Shell
