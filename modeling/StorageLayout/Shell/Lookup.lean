import StorageLayout.Shell.Escape
import StorageLayout.Shell.Grammar
import StorageLayout.Shell.Streams

/-!
# Finding Commands

What the name of a command stands for.

A name with a slash is a path. Any other name is looked for among functions and built-in commands,
and then in the folders of the search path. The programs of the system are found in folders of
their own; every other file that can be run is a script.

## Main definitions

* `Program`: What a path leads to that can be run.
* `findProgram`: The program of a name.
* `Meaning`: What a name stands for.
* `meaning`: What a name stands for, as commands that describe names see it.
-/

namespace StorageLayout.Shell

open FileTree (Trail)

/-- What can be run. -/
inductive Program where
  /-- A program of the system. -/
  | utility (name : String)
  | script (place : Trail) (path : String)
deriving Repr, DecidableEq

/-- The program at a place. -/
def programAt (place : Trail) (path : String) : Program :=
  if World.programFolders.contains place.tail then .utility (place.headD "")
  else .script place path

/-- The program that a path leads to. -/
def programOfPath (path : String) : Step (Except Trouble Program) := do
  let w ← theWorld
  match w.walk (← here) path true with
  | .error e => return .error e
  | .ok place =>
    if w.kind? place = some .file && w.isExecutable place then return .ok (programAt place path)
    else return .error .denied

/-- The paths at which a name is looked for. -/
def searchPaths (search name : String) : List String :=
  (search.splitOn ":").map fun folder => if folder = "" then name else folder ++ "/" ++ name

/-- The file that a name stands for in a search path, and its path. What is there but can not be run
is a reason of its own for finding nothing. -/
def searchProgram (search : Option String) (name : String) :
    Step (Except Trouble (Program × String)) := do
  let w ← theWorld
  let folder ← here
  let paths := match search with
    | some search => searchPaths search name
    | none => []
  let found := paths.filterMap fun path =>
    match w.walk folder path true with
    | .ok place => some (path, place)
    | .error _ => none
  let runnable := found.find? fun (_, place) => w.kind? place = some .file && w.isExecutable place
  match runnable with
  | some (path, place) => return .ok (programAt place path, path)
  | none => return .error (if found.isEmpty then .missing else .denied)

/-- The search path of a system. -/
def standardPath : String :=
  "/usr/local/sbin:/usr/local/bin:/usr/sbin:/usr/bin:/sbin:/bin"

/-- The program of a name, found along a search path unless it is a path itself. -/
def findProgram (search : Option String) (name : String) : Step (Except Trouble Program) := do
  if name.toList.contains '/' then programOfPath name
  else return (← searchProgram search name).map (·.1)

/-- Why a program cannot be run, in words. -/
def Trouble.asCommand (e : Trouble) : String :=
  match e with
  | .missing | .notFolder => "not found"
  | e => e.text

/-- The status that says why a program could not be run. -/
def Trouble.commandStatus (e : Trouble) : Nat :=
  match e with
  | .missing | .notFolder | .tooManyLinks | .longName => 127
  | _ => 126

/-! ## Describing names -/

/-- The names of built-in commands that give way to functions. -/
def regularBuiltins : List String :=
  ["[", "alias", "bg", "cd", "chdir", "command", "echo", "false", "fg", "getopts", "hash", "jobs",
    "kill", "printf", "pwd", "read", "test", "true", "type", "ulimit", "umask", "unalias", "wait"]

/-- What a name stands for. -/
inductive Meaning where
  | keyword
  | synonym (text : String)
  | special
  | function
  | builtin
  | program (path : String)
  | nothing

/-- What a name stands for, as commands that describe names see it. -/
def meaning (search : Option String) (name : String) : Step Meaning := do
  let p ← theProcess
  if Reader.keywords.contains name then return .keyword
  else if let some text := p.aliases.find? name then return .synonym text
  else if Grammar.specialBuiltins.contains name then return .special
  else if Assoc.contains name p.functions then return .function
  else if regularBuiltins.contains name then return .builtin
  else if name.toList.contains '/' then
    match (← theWorld).walk p.folder name true with
    | .ok _ => return .program name
    | .error _ => return .nothing
  else
    match ← searchProgram search name with
    | .ok (_, path) => return .program path
    | .error _ => return .nothing

/-- Describes a name in a sentence; the status says whether it stands for anything. -/
def describe (search : Option String) (name : String) : Step Nat := do
  let tell (what : String) : Step Nat := do
    say s!"{name}{what}\n"
    return 0
  match ← meaning search name with
  | .keyword => tell " is a shell keyword"
  | .synonym text => tell s!" is an alias for {text}"
  | .special => tell " is a special shell builtin"
  | .function => tell " is a shell function"
  | .builtin => tell " is a shell builtin"
  | .program path => tell s!" is {path}"
  | .nothing =>
    say s!"{name}: not found\n"
    return 127

/-- Describes a name so that the description can be used for it. -/
def describeBriefly (search : Option String) (name : String) : Step Nat := do
  match ← meaning search name with
  | .synonym text => say s!"alias {name}={singleQuoted text}\n"
  | .program path => say s!"{path}\n"
  | .nothing => return 127
  | _ => say s!"{name}\n"
  return 0

end StorageLayout.Shell
