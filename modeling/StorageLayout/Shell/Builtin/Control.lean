import StorageLayout.Shell.Builtin.Options
import StorageLayout.Shell.Escape
import StorageLayout.Shell.Lookup
import StorageLayout.Shell.Signal

/-!
# Built-in Commands for Control

Leaving loops, functions and processes; signals and what is done at them.

## Main definitions

* `exitProcess`, `returnFrom`, `leaveLoops`: Leave what they stand in.
* `setTraps`: Says what is done at signals.
* `sendSignal`: Sends a signal to processes.
* `describeNames`: Says what names stand for.
-/

namespace StorageLayout.Shell.Builtin

/-! ## Leaving -/

/-- Ends the process. In a trap the status is by default the one that the trap found. -/
def exitProcess (arguments : List String) : Step Nat := do
  match arguments with
  | word :: _ => setStatus (← countOf word)
  | [] => if let some n := (← theProcess).trapStatus then setStatus n
  throw .leave

/-- Ends the function, or the script, that is running. -/
def returnFrom (arguments : List String) : Step Nat := do
  match arguments with
  | word :: _ =>
    setStatus (← countOf word)
    throw .leaveFunction
  | [] => throw .leaveFunction

/-- Leaves loops, or goes on with their next turn. Where no loop is running nothing happens. -/
def leaveLoops (jump : Nat → Jump) (arguments : List String) : Step Nat := do
  let levels ← match arguments with
    | [] => pure 1
    | word :: _ => do
      let n ← countOf word
      if n = 0 then fault s!"Illegal number: {word}"
      pure n
  let running := (← theProcess).loops
  if running = 0 then return 0
  setStatus 0
  throw (jump (min levels running))

/-! ## Signals -/

/-- Says what is done at signals, or writes it. -/
def setTraps (arguments : List String) : Step Nat := do
  let (_, words) ← takeOptions "" arguments
  match words with
  | [] =>
    let traps := (← theProcess).traps.mergeSort fun a b => a.1 ≤ b.1
    traps.forM fun (signal, action) =>
      say s!"trap -- {singleQuoted action} {signalName signal}\n"
    return 0
  | first :: rest =>
    let (action, names) :=
      if rest.isEmpty || (first.toList.all Char.isDigit && (signalNumber? first).isSome) then
        (none, words)
      else (if first = "-" then none else some first, rest)
    setEach action names
where
  /-- Sets what is done at signals, up to one that there is not. -/
  setEach (action : Option String) : List String → Step Nat
    | [] => return 0
    | name :: rest => do
      match signalNumber? name with
      | none =>
        complain s!"trap: {name}: bad trap\n"
        return 1
      | some signal =>
        changeProcess fun p => { p with
          traps := match action with
            | some text => p.traps.put signal text
            | none => p.traps.filter (·.1 ≠ signal) }
        setEach action rest

/-- How signals are sent. -/
def killUsage : String :=
  "Usage: kill [-s sigspec | -signum | -sigspec] [pid | job]... or\nkill -l [exitstatus]"

/-- Writes the names of signals: all of them, or the one that a status tells of. -/
def listSignals (words : List String) : Step Nat := do
  match words with
  | [] => say (String.join ("0\n" :: signalNames.tail.map (· ++ "\n")))
  | word :: _ =>
    let n ← countOf word
    let signal := if n > 128 then n - 128 else n
    if 0 < signal && signal < signalNames.length then say (signalName signal ++ "\n")
    else fault s!"invalid signal number or exit status: {word}"
  return 0

/-- The process that a word names: by number, or as a job of this process. -/
def processOf (word : String) : Step Nat := do
  match word.toList with
  | '%' :: digits =>
    let jobs := (← theProcess).jobs
    let index := (String.ofList digits).toNat?.getD jobs.length
    match jobs[index - 1]? with
    | some n => return n
    | none => fault s!"No such job: {word}"
  | '-' :: digits => countOf (String.ofList digits)
  | _ => countOf word

/-- Sends a signal to a process; false if there is no such process. -/
def deliver (signal target : Nat) : Step Bool := do
  let m ← get
  if target = m.process.number then
    if signal ≠ 0 then set { m with signals := m.signals ++ [(target, signal)] }
    return true
  else
    match m.jobs.find? target with
    | none => return false
    | some (.done _) | some (.killed _) => return true
    | some .waiting =>
      if !isHarmless signal then
        set { m with
          jobs := m.jobs.put target (.killed signal)
          deferred := m.deferred.filter (·.number ≠ target) }
      return true

/-- Sends a signal to processes. -/
def sendSignal (arguments : List String) : Step Nat := do
  let sendTo (signal : Nat) (targets : List String) : Step Nat := do
    if targets.isEmpty then fault killUsage
    let sent ← targets.mapM fun word => do
      if ← deliver signal (← processOf word) then return true
      warn "No such process\n"
      return false
    return if sent.all id then 0 else 1
  match arguments with
  | [] => fault killUsage
  | first :: rest =>
    match first.toList with
    | '-' :: letters =>
      match (signalNumber? (String.ofList letters)).filter fun n => n ≠ 0 || letters = ['0'] with
      | some signal => sendTo signal rest
      | none =>
        let (given, words) ← takeOptions "ls:" arguments
        let signal ← match given.getLast? with
          | some ('s', name) =>
            match signalNumber? name with
            | some n => pure n
            | none => fault s!"invalid signal number or name: {name}"
          | _ => pure 15
        if given.any (·.1 = 'l') then listSignals words else sendTo signal words
    | _ => sendTo 15 arguments

/-! ## Names -/

/-- Says what names stand for. -/
def describeNames (arguments : List String) : Step Nat := do
  let search ← valueOf? "PATH"
  let statuses ← arguments.mapM (describe search)
  return if statuses.all (· = 0) then 0 else 127

/-- Says what a name stands for, in a sentence or so that it can be used. -/
def describeCommand (arguments : List String) : Step Nat := do
  let (given, words) ← takeOptions "pvV" arguments
  let search ← if given.any (·.1 = 'p') then pure (some standardPath) else valueOf? "PATH"
  match words with
  | [] => return 0
  | name :: _ =>
    if given.any (·.1 = 'V') then describe search name
    else if given.any (·.1 = 'v') then describeBriefly search name
    else return 0

/-- Looks programs up. -/
def lookUp (arguments : List String) : Step Nat := do
  let (_, names) ← takeOptions "r" arguments
  let search ← valueOf? "PATH"
  let statuses ← names.mapM fun name => do
    match ← meaning search name with
    | .nothing =>
      warn s!"{name}: not found"
      return 1
    | _ => return 0
  return if statuses.all (· = 0) then 0 else 1

end StorageLayout.Shell.Builtin
