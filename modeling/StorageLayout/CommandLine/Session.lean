import StorageLayout.CommandLine.Commands
import StorageLayout.Shell.Run

/-!
# Running a Command Line

A command line on the usual host, where compile commands are the shell's and the output takes every
text.

## Main definitions

* `Host.usual`: The usual host.
* `run`: Runs a command line.
-/

namespace StorageLayout.CommandLine

/-- Compile commands are run by a shell. The output is in an encoding of all characters. -/
def Host.usual : Host := { compile := Shell.compileProject }

/-- Runs a command line. -/
def run (files : FileTree) (environment : Assoc String String) (words : List String) : Outcome :=
  runOn .usual files environment words

end StorageLayout.CommandLine
