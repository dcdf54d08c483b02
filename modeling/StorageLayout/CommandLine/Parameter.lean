import StorageLayout.Resolver

/-!
# Commands and Their Parameters

What can be said on the command line.

A parameter is an option with its spellings, or the name of a contract. Each option can also be
set in the environment, under the name of the program, the command and the option.

## Main definitions

* `Kind`: What values an option takes.
* `Choice`: An option.
* `Command`: A command.
* `Context`: The program or one of its commands.
* `Context.options`: The options in a context, in the order of the help.
-/

namespace StorageLayout.CommandLine

/-- What values an option takes. -/
inductive Kind where
  /-- Set or cleared by its mere presence. -/
  | switch
  | text
  | word (words : List String)
  | number (low high : Int)
  /-- A path that leads to no file. -/
  | folder
  /-- A path that leads to a file. -/
  | file
  | path
deriving Repr, DecidableEq

/-- An option. -/
structure Choice where
  /-- What its name in the environment ends in. -/
  name : String
  spellings : List String
  /-- Spellings that clear it. -/
  clearing : List String := []
  kind : Kind
  /-- What stands when nobody sets it. -/
  usual : Option String := none
deriving Repr, DecidableEq

/-- A command. -/
inductive Command where
  | print
  | names
  | explain
deriving Repr, DecidableEq

/-- All commands, in the order of the help. -/
def Command.all : List Command := [.print, .names, .explain]

/-- The word for a command. -/
def Command.word : Command → String
  | .print => "print"
  | .names => "names"
  | .explain => "explain"

/-- The command that a word stands for. -/
def Command.ofWord? (word : String) : Option Command := Command.all.find? (·.word = word)

/-- The program itself or one of its commands. -/
inductive Context where
  | program
  | command (c : Command)
deriving Repr, DecidableEq

/-- The option that every context has. -/
def help : Choice := { name := "HELP", spellings := ["-h", "--help"], kind := .switch }

/-- The folder with the artifacts. -/
def artifacts : Choice :=
  { name := "ARTIFACTS", spellings := ["--artifacts"], kind := .folder, usual := some "artifacts" }

/-- A file to read instead of the artifacts. -/
def buildInfo : Choice := { name := "BUILD_INFO", spellings := ["--build-info"], kind := .file }

/-- Which kind of compiler output to read. -/
def mode : Choice :=
  { name := "MODE", spellings := ["--mode"], kind := .word ["auto", "ast", "layout"],
    usual := some "auto" }

/-- How deep types may be nested. -/
def maxDepth : Choice :=
  { name := "MAX_DEPTH", spellings := ["--max-depth"], kind := .number 1 128, usual := some "64" }

/-- Whether to compile first. -/
def compile : Choice :=
  { name := "COMPILE_", spellings := ["--compile"], clearing := ["--no-compile"], kind := .switch }

/-- The command that compiles. -/
def compileCommand : Choice :=
  { name := "COMPILE_COMMAND", spellings := ["--compile-command"], kind := .text,
    usual := some "npx hardhat compile --quiet" }

/-- A file to write the layout to. -/
def jsonOut : Choice := { name := "JSON_OUT", spellings := ["--json"], kind := .path }

/-- Whether to show the layout as JSON. -/
def raw : Choice := { name := "RAW", spellings := ["--raw"], kind := .switch }

/-- Whether to show slots as words. -/
def hexSlots : Choice := { name := "HEX_SLOTS", spellings := ["--hex"], kind := .switch }

/-- The options in a context, in the order of the help. -/
def Context.options : Context → List Choice
  | .program => [help]
  | .command .print =>
    [artifacts, buildInfo, mode, maxDepth, compile, compileCommand, jsonOut, raw, hexSlots, help]
  | .command .names => [artifacts, buildInfo, help]
  | .command .explain => [help]

/-- Whether a context takes the name of a contract. -/
def Context.takesContract : Context → Bool
  | .command .print => true
  | _ => false

/-- The words by which a context is called. -/
def Context.path : Context → String
  | .program => "layoutlens"
  | .command c => s!"layoutlens {c.word}"

/-- The name of a context's option in the environment. -/
def Context.environmentName (context : Context) (option : Choice) : String :=
  match context with
  | .program => s!"LAYOUTLENS_{option.name}"
  | .command c => s!"LAYOUTLENS_{c.word.toUpper}_{option.name}"

end StorageLayout.CommandLine
