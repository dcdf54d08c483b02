import StorageLayout.Shell.Reader
import StorageLayout.Shell.World

/-!
# The Machine

What a shell works on, and how its steps end.

A machine holds the files, the streams that have been opened, and the process that is running. A
process has all that it keeps to itself: its folder, its variables, where its streams go. A part of
a script that keeps to itself what it sets is run on the machine as it is, and the process is put
back afterwards, while files and streams stay changed.

A step of a shell either ends with a value, or with a jump that leaves what it stands in: a loop, a
function, or the process.

## Main definitions

* `OpenFile`: A stream that has been opened.
* `Process`: What a process keeps to itself.
* `Machine`: The state.
* `Jump`: How a step leaves what it stands in.
* `Step`: A step.
-/

namespace StorageLayout.Shell

open FileTree (Trail)

/-- What a stream leads to. -/
inductive Channel where
  /-- Keeps nothing, and has nothing. -/
  | nowhere
  /-- Takes nothing, as if no place were left. -/
  | full
  /-- Collects what is written. -/
  | collector
  /-- A text to read. -/
  | supply
  | file (place : Trail)
  | folder
deriving Repr, DecidableEq

/-- A stream that has been opened. Streams that are copies of each other share it. -/
structure OpenFile where
  channel : Channel
  /-- What has been collected, or what there is to read. -/
  content : String := ""
  position : Nat := 0
  append : Bool := false
  readable : Bool := true
  writable : Bool := true

/-- A variable. -/
structure Variable where
  /-- Nothing for a variable that has been declared and not been set. -/
  value : Option String
  exported : Bool := false
  fixed : Bool := false

/-- A job in the background. -/
inductive Job where
  /-- Yet to be run. -/
  | waiting
  | done (status : Nat)
  /-- Ended by a signal, of which nobody has been told. -/
  | killed (signal : Nat)
deriving Repr, DecidableEq

/-- What a function has made its own, as it was before. -/
structure Scope where
  vars : Assoc String (Option Variable) := []
  options : Option (List Char) := none

/-- What a process keeps to itself. -/
structure Process where
  /-- What stands for the process among all of them. -/
  number : Nat
  folder : Trail
  /-- The opened streams, by their numbers. -/
  streams : Assoc Nat Nat
  vars : Assoc String Variable
  functions : Assoc String Command := []
  aliases : Assoc String String := []
  /-- The name under which it was started. -/
  name : String
  positional : List String := []
  status : Nat := 0
  /-- The status of the last command whose output was put into a word. -/
  outputStatus : Nat := 0
  /-- The options that are on, by their letters. -/
  options : List Char := []
  /-- What is done at signals; the end of the process counts as signal 0. -/
  traps : Assoc Nat String := []
  line : Nat := 1
  /-- The built-in command that speaks. -/
  speaker : Option String := none
  /-- How many loops the command that is running stands in. -/
  loops : Nat := 0
  /-- What the functions that are running have made their own, innermost function first. -/
  locals : List Scope := []
  /-- How many functions the command that is running stands in. -/
  functionDepth : Nat := 0
  /-- The jobs that were started in the background, by the numbers of their processes. -/
  jobs : List Nat := []
  /-- The status that a trap that is running found. -/
  trapStatus : Option Nat := none
  /-- Whether the process is a part of a script that keeps to itself what it sets. -/
  apart : Bool := false
  /-- The argument with the next option, counted from one. -/
  optionIndex : Nat := 1
  /-- How many characters of the argument before it have been looked at; nothing if it is done with.
  -/
  optionOffset : Option Nat := none
  /-- Why the output of a built-in command could not be written. -/
  outputTrouble : Option Trouble := none
  /-- The permissions that new files do not get. -/
  mask : Nat := 0o022

/-- A job in the background that is yet to be run, with the process it is run in. -/
structure Deferred where
  number : Nat
  process : Process
  body : Command

/-- The state. -/
structure Machine where
  world : World
  files : Array OpenFile := #[]
  /-- The texts in scripts, by number. -/
  documents : Array Word := #[]
  process : Process
  /-- The jobs in the background, by the numbers of their processes. -/
  jobs : Assoc Nat Job := []
  /-- The jobs that are yet to be run. -/
  deferred : List Deferred := []
  /-- Signals on their way: the number of a process, and the signal. -/
  signals : List (Nat × Nat) := []
  /-- The number of the youngest process. -/
  youngest : Nat := 1

/-- How a step leaves what it stands in. -/
inductive Jump where
  /-- Ends the process. -/
  | leave
  /-- Ends the process after a complaint, unless a built-in command is to blame. -/
  | fault
  | leaveLoop (levels : Nat)
  | nextTurn (levels : Nat)
  | leaveFunction
  /-- A signal ends the process of a number. -/
  | killed (process signal : Nat)
  /-- A step took too long. -/
  | exhausted
deriving Repr, DecidableEq

/-- A step. -/
abbrev Step := ExceptT Jump (StateM Machine)

namespace Machine

/-- The machine with its process changed. -/
def withProcess (m : Machine) (f : Process → Process) : Machine :=
  { m with process := f m.process }

end Machine

/-- The process that is running. -/
def theProcess : Step Process := do return (← get).process

/-- Changes the process that is running. -/
def changeProcess (f : Process → Process) : Step Unit := modify (·.withProcess f)

/-- The files. -/
def theWorld : Step World := do return (← get).world

/-- Changes the files. -/
def changeWorld (f : World → World) : Step Unit := modify fun m => { m with world := f m.world }

/-- The folder in which the process stands. -/
def here : Step Trail := do return (← theProcess).folder

/-- The status of the last command. -/
def status : Step Nat := do return (← theProcess).status

/-- Sets the status of the last command. -/
def setStatus (n : Nat) : Step Unit := changeProcess fun p => { p with status := n }

/-- Whether an option is on. -/
def isOn (letter : Char) : Step Bool := do return (← theProcess).options.contains letter

/-- A step and then another one, even if the first leaves. -/
def thenAlways {α : Type} (body : Step α) (final : Step Unit) : Step α := fun m =>
  match body m with
  | (.ok a, m) =>
    match final m with
    | (.ok (), m) => (.ok a, m)
    | (.error j, m) => (.error j, m)
  | (.error j, m) =>
    match final m with
    | (.ok (), m) => (.error j, m)
    | (.error j, m) => (.error j, m)

/-- A step whose jumps are looked at. -/
def catching {α : Type} (body : Step α) : Step (Except Jump α) := fun m =>
  match body m with
  | (result, m) => (.ok result, m)

/-! ## Variables -/

/-- A variable. -/
def findVariable? (name : String) : Step (Option Variable) := do
  return (← theProcess).vars.find? name

/-- The value of a variable. -/
def valueOf? (name : String) : Step (Option String) := do
  return (← findVariable? name).bind (·.value)

/-- The value of a variable, or an empty text. -/
def variableText (name : String) : Step String := do return (← valueOf? name).getD ""

/-- The characters between fields. -/
def separators : Step String := do return (← valueOf? "IFS").getD " \t\n"

/-- The variables that programs see. -/
def exports : Step (Assoc String String) := do
  return (← theProcess).vars.filterMap fun e =>
    if e.2.exported then e.2.value.map fun value => (e.1, value) else none

/-! ## Streams -/

/-- Opens a stream, which gets a number among all of them. -/
def openStream (f : OpenFile) : Step Nat := do
  let m ← get
  set { m with files := m.files.push f }
  return m.files.size

/-- The stream that a number of the process stands for. -/
def stream? (n : Nat) : Step (Option (Nat × OpenFile)) := do
  let m ← get
  return do
    let index ← m.process.streams.find? n
    let f ← m.files[index]?
    return (index, f)

/-- Changes a stream that has been opened. -/
def changeStream (index : Nat) (f : OpenFile → OpenFile) : Step Unit :=
  modify fun m => { m with files := m.files.modify index f }

/-- Lets a number of the process stand for a stream. -/
def bindStream (n index : Nat) : Step Unit :=
  changeProcess fun p => { p with streams := p.streams.put n index }

/-- Closes a stream of the process. -/
def closeStream (n : Nat) : Step Unit :=
  changeProcess fun p => { p with streams := p.streams.filter (·.1 ≠ n) }

/-- A text with another one put over it from a position on. Where the position is beyond the end,
what is between is filled with null characters. -/
def overlay (old new : List Char) (position : Nat) : List Char :=
  old.take position ++ List.replicate (position - old.length) '\x00' ++ new
    ++ old.drop (position + new.length)

/-- Writes octets to a stream. -/
def writeTo (n : Nat) (text : String) : Step (Except Trouble Unit) := do
  if text = "" then return .ok ()
  match ← stream? n with
  | none => return .error .badStream
  | some (index, f) =>
    if !f.writable then return .error .badStream
    match f.channel with
    | .nowhere => return .ok ()
    | .full => return .error .noSpace
    | .supply | .folder => return .error .badStream
    | .collector =>
      changeStream index fun f => { f with content := f.content ++ text }
      return .ok ()
    | .file place =>
      let w ← theWorld
      match w.kind? place with
      | some .file =>
        let old := (w.content place).toList
        let position := if f.append then old.length else f.position
        let new := overlay old text.toList position
        changeWorld (·.write place (String.ofList new))
        changeStream index fun f => { f with position := position + text.length }
        return .ok ()
      | _ => return .ok ()

/-- What is left to read in a stream. -/
def remaining (f : OpenFile) : Step (Except Trouble String) := do
  if !f.readable then return .error .badStream
  match f.channel with
  | .nowhere | .full => return .ok ""
  | .collector => return .error .badStream
  | .folder => return .error .folder
  | .supply => return .ok (String.ofList (f.content.toList.drop f.position))
  | .file place => return .ok (String.ofList (((← theWorld).content place).toList.drop f.position))

/-- Reads a stream to its end. -/
def readAll (n : Nat) : Step (Except Trouble String) := do
  match ← stream? n with
  | none => return .error .badStream
  | some (index, f) =>
    match ← remaining f with
    | .ok text =>
      changeStream index fun f => { f with position := f.position + text.length }
      return .ok text
    | .error e => return .error e

/-- Puts octets that were read and are not needed back into a stream. -/
def unread (n count : Nat) : Step Unit := do
  match ← stream? n with
  | some (index, _) => changeStream index fun f => { f with position := f.position - count }
  | none => return

/-! ## Messages -/

/-- Writes to the output of the process, and notes if that cannot be done. -/
def say (text : String) : Step Unit := do
  match ← writeTo 1 text with
  | .ok () => return
  | .error e => changeProcess fun p => { p with outputTrouble := some e }

/-- Writes to the errors of the process. -/
def complain (text : String) : Step Unit := do
  let _ ← writeTo 2 text

/-- A message as a shell says it: with its name, the line, and the command that speaks. -/
def warn (message : String) : Step Unit := do
  let p ← theProcess
  let speaker := match p.speaker with
    | some name => s!"{name}: "
    | none => ""
  complain s!"{p.name}: {p.line}: {speaker}{message}\n"

/-- Stops with a message. -/
def fault {α : Type} (message : String) : Step α := do
  warn message
  setStatus 2
  throw .fault

/-- A command of a shell that speaks for itself. -/
def speaking {α : Type} (speaker : String) (body : Step α) : Step α := do
  let before := (← theProcess).speaker
  changeProcess fun p => { p with speaker := some speaker }
  thenAlways body (changeProcess fun p => { p with speaker := before })

/-! ## Setting variables -/

/-- Sets a variable, unless it is fixed. What has been declared can be set. -/
def setVariable (name : String) (value : Option String) (exported : Bool) : Step Unit := do
  let before ← findVariable? name
  if (before.map (·.fixed)).getD false then fault s!"{name}: is read only"
  let exported := exported || (before.map (·.exported)).getD false || (← isOn 'a')
  changeProcess fun p => { p with vars := p.vars.put name { value, exported } }
  if name = "OPTIND" then
    let index := (value.bind String.toNat?).getD 1
    changeProcess fun p => { p with optionIndex := max index 1, optionOffset := none }

/-- Sets a variable to a text. -/
def assign (name value : String) : Step Unit := setVariable name (some value) false

/-- Takes a variable away, unless it is fixed. -/
def unsetVariable (name : String) : Step Unit := do
  match ← findVariable? name with
  | none => return
  | some v =>
    if v.fixed then fault s!"{name}: is read only"
    changeProcess fun p => { p with vars := p.vars.filter (·.1 ≠ name) }

/-- Makes a variable one of the innermost scope; it keeps its value. -/
def makeLocal (name : String) : Step Unit := do
  changeProcess fun p =>
    match p.locals with
    | [] => p
    | scope :: outer =>
      if Assoc.contains name scope.vars then p
      else
        let vars := scope.vars.put name (p.vars.find? name)
        { p with locals := { scope with vars } :: outer }

/-- Makes the options those of the innermost scope. -/
def makeOptionsLocal : Step Unit := do
  changeProcess fun p =>
    match p.locals with
    | [] => p
    | scope :: outer =>
      { p with locals := { scope with options := some (scope.options.getD p.options) } :: outer }

/-- Runs a step with variables of its own, which are put back afterwards. -/
def withLocals {α : Type} (body : Step α) : Step α := do
  changeProcess fun p => { p with locals := {} :: p.locals }
  thenAlways body (changeProcess fun p =>
    match p.locals with
    | [] => p
    | scope :: outer =>
      let restore (vs : Assoc String Variable) (e : String × Option Variable) :=
        match e.2 with
        | some v => vs.put e.1 v
        | none => vs.filter (·.1 ≠ e.1)
      { p with
        locals := outer
        vars := scope.vars.foldl restore p.vars
        options := scope.options.getD p.options })

/-! ## Processes -/

/-- A number for a new process. -/
def newProcess : Step Nat := do
  let m ← get
  set { m with youngest := m.youngest + 1 }
  return m.youngest + 1

/-- Runs a step in a process of its own; the process that was running goes on afterwards. -/
def inProcess {α : Type} (process : Process) (body : Step α) : Step α := do
  let before ← theProcess
  changeProcess fun _ => process
  thenAlways body (changeProcess fun _ => before)

/-- Runs a step with streams of its own. -/
def keepingStreams {α : Type} (body : Step α) : Step α := do
  let before := (← theProcess).streams
  thenAlways body (changeProcess fun p => { p with streams := before })

/-- What a step writes to its output. -/
def collecting {α : Type} (body : Step α) : Step (String × α) := do
  let index ← openStream { channel := .collector, readable := false }
  let result ← keepingStreams do
    bindStream 1 index
    body
  return (((← get).files[index]?.map (·.content)).getD "", result)

/-- Runs a step with a text as its input. -/
def supplying {α : Type} (text : String) (body : Step α) : Step α := do
  let index ← openStream { channel := .supply, content := text, writable := false }
  keepingStreams do
    bindStream 0 index
    body

end StorageLayout.Shell
