import StorageLayout.Shell.Builtin.Table
import StorageLayout.Shell.Expansion
import StorageLayout.Utility.Table

/-!
# Running Commands

What commands do, and the status they end with.

A command sets the status of its process. It is `tested` if something else depends on the status,
so that a failure does not end the process even if failures do otherwise. Where a part of a script
keeps to itself what it sets, it is run in a copy of the process, and the stages of a pipeline are
run one after the other, each with what the one before it wrote as its input. Jobs in the
background are run at once unless they begin with a pause; such a job is run when it is waited for,
or at the end.

Loops can go on forever, so that running takes fuel.

## Main definitions

* `execute`: Runs a command.
* `runText`: Runs a script.
* `runWords`: Runs a program.
-/

namespace StorageLayout.Shell

open FileTree (Trail)

/-! ## Processes -/

/-- What is to be done at the end of a process. The status stays what it was unless the action
itself ends the process or fails. -/
def finishProcess (runTrap : String → Step Unit) : Step Unit := do
  match (← theProcess).traps.find? 0 with
  | none => return
  | some action =>
    let found ← status
    changeProcess fun p => { p with
      traps := p.traps.filter (·.1 ≠ 0), trapStatus := some found, loops := 0 }
    match ← catching (runTrap action) with
    | .error .leave | .error .fault => return
    | .error (.killed process signal) => throw (.killed process signal)
    | .error .exhausted => throw .exhausted
    | _ => setStatus found

/-- Runs a step as all that its process does, and gives its status. -/
def toTheEnd (runTrap : String → Step Unit) (body : Step Unit) : Step Nat := do
  match ← catching body with
  | .error (.killed process signal) => throw (.killed process signal)
  | .error .exhausted => throw .exhausted
  | _ =>
    finishProcess runTrap
    return (← status) % 256

/-- A copy of a process that keeps to itself what it sets. Of what is done at signals, only that
some are ignored is kept. -/
def Process.copy (p : Process) : Process :=
  { p with apart := true, traps := p.traps.filter (·.2 = "") }

/-- Runs a step in a copy of the process, and gives its status. -/
def inSubshell (runTrap : String → Step Unit) (body : Step Unit) : Step Nat := do
  inProcess (← theProcess).copy (toTheEnd runTrap body)

/-- The variables that every shell has, whatever it is handed. -/
def ownVariables : List (String × String) :=
  [("IFS", " \t\n"), ("OPTIND", "1"), ("PPID", "4095"), ("PS1", "# "), ("PS2", "> "),
    ("PS4", "+ ")]

/-- The variables of a shell that is handed some. -/
def initialVariables (handed : List (String × String)) : Assoc String Variable :=
  let named := handed.filter fun e => Reader.isName e.1 && !Assoc.contains e.1 ownVariables
  named.map (fun e => (e.1, { value := some e.2, exported := true }))
    ++ ownVariables.map fun e => (e.1, { value := some e.2 })

/-- A new process that starts from what the present one hands on: its folder, its streams, and the
variables that it exports. -/
def freshProcess (name : String) : Step Process := do
  let number ← newProcess
  let p ← theProcess
  return {
    number, name
    folder := p.folder
    streams := p.streams
    vars := initialVariables (← exports)
    traps := p.traps.filter (·.2 = "")
    mask := p.mask
    line := 0 }

/-- Runs a step as a program of its own, and gives its status. That a signal has ended it is told.
-/
def inChild (runTrap : String → Step Unit) (process : Process) (body : Step Unit) :
    Step Nat := do
  match ← catching (inProcess process (toTheEnd runTrap body)) with
  | .ok n => return n
  | .error (.killed target signal) =>
    if target ≠ process.number then throw (.killed target signal)
    if let some text := signalObituary signal then complain (text ++ "\n")
    return 128 + signal
  | .error j => throw j

/-- What commands in a word come to: their output without the line ends at its end. -/
def wordOutput (text : String) : String :=
  let cs := text.toList.filter (· ≠ '\x00')
  String.ofList (cs.reverse.dropWhile (· = '\n')).reverse

/-- Ends the process if a command has failed that should not have. -/
def checkFailure (tested : Bool) : Step Unit := do
  if !tested && (← isOn 'e') && (← status) ≠ 0 then throw .leave

/-- Whether a command begins with a pause. -/
def beginsWithPause : Command → Bool
  | .simple _ _ (w :: _) _ => bareText? w = some "sleep"
  | .sequence first _ | .andThen first _ | .orElse first _ => beginsWithPause first
  | .apart _ body _ | .redirected _ body _ => beginsWithPause body
  | _ => false

/-! ## Redirections -/

/-- A redirection whose target is known. -/
inductive Rerouting where
  | file (stream : Nat) (opening : Opening) (path : String)
  | copy (stream source : Nat)
  | close (stream : Nat)
  | document (stream number : Nat)

/-- Expands the target of a redirection. -/
def expandRedirect (run : Command → Step String) : Redirect → Step Rerouting
  | .file stream opening w => return .file stream opening (← textOfWord run w)
  | .document stream number => return .document stream number
  | .copy stream w => do
    let text ← textOfWord run w
    match text.toList with
    | ['-'] => return .close stream
    | [c] => if c.isDigit then return .copy stream (c.toNat - 48) else refuse
    | _ => refuse
where
  /-- Stops at a target that is no stream. -/
  refuse : Step Rerouting := fault s!"Syntax error: {Misreading.badStream.text}"

/-- Why a file cannot be opened, in words. -/
def Trouble.asOpened (opening : Opening) (e : Trouble) : String :=
  match e with
  | .missing | .notFolder => if opening = .read then "No such file" else "Directory nonexistent"
  | e => e.text

/-- Carries a redirection out. -/
def reroute (run : Command → Step String) : Rerouting → Step Unit
  | .file stream opening path => do
    match ← openPath path opening with
    | .ok index => bindStream stream index
    | .error e =>
      let verb := if opening = .read then "open" else "create"
      fault s!"cannot {verb} {path}: {e.asOpened opening}"
  | .copy stream source => do
    match ← copyStream stream source with
    | .ok () => return
    | .error e => fault s!"{source}: {e.text}"
  | .close stream => closeStream stream
  | .document stream number => do
    let content ← textOfDocument run (((← get).documents[number]?).getD [])
    bindStream stream (← openStream { channel := .supply, content, writable := false })

/-- Carries redirections out, from left to right; false if one of them fails. -/
def rerouteAll (run : Command → Step String) (rs : List Rerouting) : Step Bool := do
  match ← catching (rs.forM (reroute run)) with
  | .ok () => return true
  | .error .fault => return false
  | .error j => throw j

/-! ## Simple commands -/

/-- The built-in commands whose arguments can be assignments. -/
def declaringBuiltins : List String := ["alias", "export", "local", "readonly"]

/-- The texts that the words of a simple command become. Once the command has been `named`, it is
known whether assignments among its arguments stay in one piece. -/
def callWords (run : Command → Step String) (named declaring : Bool) :
    List Word → Step (List String)
  | [] => return []
  | w :: rest => do
    let fields ← match if declaring then Grammar.assignment? w else none with
      | some (name, value) => pure [name ++ "=" ++ (← textOfAssigned run value)]
      | none => fieldsOfWord run w
    let isName (s : String) : Bool := s ≠ "command" && s.toList.head? ≠ some '-'
    let (named, declaring) :=
      if named then (true, declaring)
      else match fields.find? isName with
        | some name => (true, declaringBuiltins.contains name)
        | none => (false, false)
    return fields ++ (← callWords run named declaring rest)

/-- What a simple command calls. -/
inductive Callee where
  | nothing
  | builtin (name : String) (special : Bool)
  | function (body : Command)
  | program (search : Option String)

/-- The arguments after those of `command`, and whether the search path is that of the system. -/
def unwrapCommand (standard : Bool) : List String → Option (Bool × List String)
  | [] => none
  | "--" :: rest => if rest.isEmpty then none else some (standard, rest)
  | "-p" :: rest => unwrapCommand true rest
  | word :: rest =>
    if word.toList.head? = some '-' && word ≠ "-" then none else some (standard, word :: rest)

/-- What the words of a simple command call, and the words from its name on. -/
def resolve (functions : Assoc String Command) (path : Option String) (direct : Bool) :
    (fuel : Nat) → List String → Callee × List String
  | 0, words => (.nothing, words)
  | _, [] => (.nothing, [])
  | fuel + 1, name :: rest =>
    let words := name :: rest
    if Grammar.specialBuiltins.contains name then (.builtin name direct, words)
    else match if direct then functions.find? name else none with
      | some body => (.function body, words)
      | none =>
        if name = "command" then
          match unwrapCommand false rest with
          | some (standard, words) =>
            resolve functions (if standard then some standardPath else path) false fuel words
          | none => (.builtin name false, words)
        else if regularBuiltins.contains name then (.builtin name false, words)
        else (.program path, words)

/-- The result of running a built-in command. One that is not special is to blame for its faults
alone; one whose output cannot be written fails. -/
def settleBuiltin (name : String) (special : Bool) (body : Step Nat) : Step Unit := do
  changeProcess fun p => { p with outputTrouble := none }
  match ← catching (speaking name body) with
  | .ok n =>
    match (← theProcess).outputTrouble with
    | none => setStatus n
    | some _ =>
      speaking name (warn s!"{name}: I/O error")
      setStatus (n ||| 1)
  | .error .fault => if special then throw .fault
  | .error j => throw j

/-- Runs a function with its arguments. -/
def callFunction (arguments : List String) (body : Step Unit) : Step Unit := do
  let before ← theProcess
  changeProcess fun p => { p with
    positional := arguments, optionIndex := 1, optionOffset := none, loops := 0
    functionDepth := p.functionDepth + 1 }
  let result ← catching body
  changeProcess fun p => { p with
    positional := before.positional, optionIndex := before.optionIndex
    optionOffset := before.optionOffset, loops := before.loops
    functionDepth := before.functionDepth }
  match result with
  | .ok () | .error .leaveFunction => return
  | .error j => throw j

/-- Writes a command before it is run, if that is wanted. -/
def trace (errors : Option Nat) (texts : List String) : Step Unit := do
  if ← isOn 'x' then
    let mark := (← valueOf? "PS4").getD "+ "
    keepingStreams do
      if let some index := errors then bindStream 2 index
      complain (mark ++ " ".intercalate texts ++ "\n")

/-! ## Programs -/

/-- How a script says what it is to be run by: a path and an argument. -/
def interpreterOf? (content : String) : Option (String × List String) :=
  match content.toList with
  | '#' :: '!' :: rest =>
    let line := rest.takeWhile (· ≠ '\n')
    let blank (c : Char) : Bool := c = ' ' || c = '\t'
    let body := (line.dropWhile blank).reverse.dropWhile blank |>.reverse
    let path := body.takeWhile (!blank ·)
    let argument := (body.dropWhile (!blank ·)).dropWhile blank
    some (String.ofList path, if argument.isEmpty then [] else [String.ofList argument])
  | _ => none

/-- How a shell is started. -/
structure Invocation where
  /-- Whether the first argument is a script. -/
  command : Bool := false
  rest : List String

/-- Reads how a shell is started, and sets its options. -/
def readInvocation : (fuel : Nat) → Invocation → Step Invocation
  | 0, i => return i
  | fuel + 1, i => do
    match i.rest with
    | [] => return i
    | word :: rest =>
      if word = "-" || word = "--" then return { i with rest }
      else match word.toList with
        | sign :: letters =>
          if sign = '-' || sign = '+' then
            let command := letters.contains 'c'
            let letters := letters.filter fun c => c ≠ 'c' && c ≠ 'l'
            let rest ← Builtin.switchLetters (sign = '-') letters rest
            readInvocation fuel { command := i.command || command, rest }
          else return i
        | [] => return i

/-- The programs that are shells. -/
def shellNames : List String := ["sh", "dash"]

/-! ## Commands -/

mutual

/-- Runs a command. -/
def execute (fuel : Nat) (tested : Bool) (c : Command) : Step Unit :=
  match fuel with
  | 0 => throw .exhausted
  | fuel + 1 => do
    if ← isOn 'n' then return
    match c with
    | .nothing => setStatus 0
    | .simple line assignments words redirects => do
      simpleCommand fuel tested line assignments words redirects
      handleSignals fuel
      checkFailure tested
    | .sequence first second => do
      execute fuel tested first
      execute fuel tested second
    | .andThen first second => do
      execute fuel true first
      if (← status) = 0 then execute fuel tested second
    | .orElse first second => do
      execute fuel true first
      if (← status) ≠ 0 then execute fuel tested second
    | .negate body => do
      execute fuel true body
      setStatus (if (← status) = 0 then 1 else 0)
    | .pipe stages => do
      setStatus (← pipeline fuel tested none stages)
      handleSignals fuel
      checkFailure tested
    | .background body => do
      let number ← newProcess
      let p ← theProcess
      let nowhere ← openStream { channel := .nowhere }
      let process := { p.copy with streams := p.streams.put 0 nowhere }
      modify fun m => { m with
        jobs := m.jobs.put number .waiting
        deferred := m.deferred ++ [{ number, process, body }] }
      changeProcess fun p => { p with jobs := p.jobs ++ [number] }
      if !beginsWithPause body then runJob fuel number
      setStatus 0
    | .apart line body redirects => do
      changeProcess fun p => { p with line }
      let rs ← redirects.mapM (expandRedirect (commandOutput fuel))
      let n ← inSubshell (runTrap fuel) do
        if ← rerouteAll (commandOutput fuel) rs then execute fuel tested body
        else
          setStatus 2
          throw .leave
      setStatus n
      handleSignals fuel
      checkFailure tested
    | .redirected line body redirects => do
      changeProcess fun p => { p with line }
      let rs ← redirects.mapM (expandRedirect (commandOutput fuel))
      keepingStreams do
        if ← rerouteAll (commandOutput fuel) rs then execute fuel tested body
        else
          setStatus 2
          checkFailure tested
    | .branch condition yes no => do
      execute fuel true condition
      if (← status) = 0 then execute fuel tested yes else execute fuel tested no
    | .loop whileHolds condition body => do
      changeProcess fun p => { p with loops := p.loops + 1 }
      thenAlways (loop fuel tested whileHolds condition body 0)
        (changeProcess fun p => { p with loops := p.loops - 1 })
    | .forEach line name words body => do
      changeProcess fun p => { p with line }
      let values ← match words with
        | some ws => fieldsOfWords (commandOutput fuel) ws
        | none => do pure (← theProcess).positional
      setStatus 0
      changeProcess fun p => { p with loops := p.loops + 1 }
      thenAlways (turns fuel tested name body values)
        (changeProcess fun p => { p with loops := p.loops - 1 })
    | .choose line subject cases => do
      changeProcess fun p => { p with line }
      let text ← textOfWord (commandOutput fuel) subject
      firstCase fuel tested text cases
    | .function name body => do
      changeProcess fun p => { p with functions := p.functions.put name body }
      setStatus 0

/-- Repeats the body of a loop, which ends with the status of the last turn. -/
def loop (fuel : Nat) (tested whileHolds : Bool) (condition body : Command) (last : Nat) :
    Step Unit :=
  match fuel with
  | 0 => throw .exhausted
  | fuel + 1 => do
    match ← catching (execute fuel true condition) with
    | .error (.leaveLoop levels) => if levels > 1 then throw (.leaveLoop (levels - 1))
    | .error (.nextTurn levels) =>
      if levels > 1 then throw (.nextTurn (levels - 1))
      loop fuel tested whileHolds condition body last
    | .error j => throw j
    | .ok () =>
      if ((← status) = 0) ≠ whileHolds then setStatus last
      else
        match ← catching (execute fuel tested body) with
        | .error (.leaveLoop levels) => if levels > 1 then throw (.leaveLoop (levels - 1))
        | .error (.nextTurn levels) =>
          if levels > 1 then throw (.nextTurn (levels - 1))
          loop fuel tested whileHolds condition body (← status)
        | .error j => throw j
        | .ok () => loop fuel tested whileHolds condition body (← status)

/-- Repeats the body of a loop for every value. -/
def turns (fuel : Nat) (tested : Bool) (name : String) (body : Command) (values : List String) :
    Step Unit :=
  match fuel with
  | 0 => throw .exhausted
  | fuel + 1 => do
    match values with
    | [] => return
    | value :: rest =>
      assign name value
      match ← catching (execute fuel tested body) with
      | .error (.leaveLoop levels) => if levels > 1 then throw (.leaveLoop (levels - 1))
      | .error (.nextTurn levels) =>
        if levels > 1 then throw (.nextTurn (levels - 1))
        turns fuel tested name body rest
      | .error j => throw j
      | .ok () => turns fuel tested name body rest

/-- Runs the first case that the text is one of. -/
def firstCase (fuel : Nat) (tested : Bool) (text : String) (cases : List (List Word × Command)) :
    Step Unit :=
  match fuel with
  | 0 => throw .exhausted
  | fuel + 1 => do
    match cases with
    | [] => setStatus 0
    | (patterns, body) :: rest =>
      let found ← patterns.anyM fun w => do
        return (← patternOfWord (commandOutput fuel) w).accepts text.toList
      if found then execute fuel tested body else firstCase fuel tested text rest

/-- Runs the stages of a pipeline, each with what the one before it wrote, and gives the status of
the last one. A stage before the last that would never end has written what it wrote. -/
def pipeline (fuel : Nat) (tested : Bool) (input : Option String) (stages : List Command) :
    Step Nat :=
  match fuel with
  | 0 => throw .exhausted
  | fuel + 1 => do
    let stage (c : Command) : Step Nat :=
      let body := inSubshell (runTrap fuel) (execute fuel tested c)
      match input with
      | some text => supplying text body
      | none => body
    match stages with
    | [] => return 0
    | [c] => stage c
    | c :: rest =>
      let (text, _) ← collecting (catching (stage c))
      pipeline fuel tested (some text) rest

/-- The output of a command, as it is put into a word. Jobs that it leaves behind have to end first.
-/
def commandOutput (fuel : Nat) (c : Command) : Step String :=
  match fuel with
  | 0 => throw .exhausted
  | fuel + 1 => do
    let (text, n) ← collecting (inSubshell (runTrap fuel)
      (thenAlways (execute fuel false c) (runDeferred fuel)))
    changeProcess fun p => { p with outputStatus := n }
    return wordOutput text

/-- Runs a job in the background that is yet to be run. -/
def runJob (fuel : Nat) (number : Nat) : Step Unit :=
  match fuel with
  | 0 => throw .exhausted
  | fuel + 1 => do
    let m ← get
    match m.deferred.find? (·.number = number) with
    | none => return
    | some job =>
      set { m with deferred := m.deferred.filter (·.number ≠ number) }
      let n ← inProcess job.process (toTheEnd (runTrap fuel) (execute fuel false job.body))
      modify fun m => { m with jobs := m.jobs.put number (.done n) }

/-- Runs all jobs that are yet to be run. -/
def runDeferred (fuel : Nat) : Step Unit :=
  match fuel with
  | 0 => throw .exhausted
  | fuel + 1 => do (← get).deferred.forM fun job => runJob fuel job.number

/-- Does what is to be done at the signals that have arrived. -/
def handleSignals (fuel : Nat) : Step Unit :=
  match fuel with
  | 0 => throw .exhausted
  | fuel + 1 => do
    let m ← get
    let p := m.process
    if p.apart then return
    match m.signals.find? (·.1 = p.number) with
    | none => return
    | some (_, signal) =>
      set { m with signals := m.signals.erase (p.number, signal) }
      match if signal = 9 || signal = 19 then none else p.traps.find? signal with
      | some "" => return
      | some action =>
        let found ← status
        changeProcess fun p => { p with trapStatus := some found }
        runTrap fuel action
        changeProcess fun q => { q with trapStatus := p.trapStatus }
        setStatus found
      | none => if !isHarmless signal then throw (.killed p.number signal)
      handleSignals fuel

/-- Runs a simple command: assignments, and what its words call. -/
def simpleCommand (fuel : Nat) (tested : Bool) (line : Nat) (assignments : List (String × Word))
    (words : List Word) (redirects : List Redirect) : Step Unit :=
  match fuel with
  | 0 => throw .exhausted
  | fuel + 1 => do
    changeProcess fun p => { p with line, outputStatus := 0 }
    let run := commandOutput fuel
    let call ← callWords run false false words
    let rs ← redirects.mapM (expandRedirect run)
    let p ← theProcess
    let errors := p.streams.find? 2
    let (callee, inner) :=
      resolve p.functions ((p.vars.find? "PATH").bind (·.value)) true (call.length + 1) call
    let assignAll (put : String → String → Step Unit) : Step (List String) :=
      assignments.mapM fun (name, w) => do
        let text ← textOfAssigned run w
        put name text
        return name ++ "=" ++ text
    let ownAssignments : Step (List String) := assignAll fun name text => do
      makeLocal name
      setVariable name (some text) true
    let name := inner.headD ""
    let arguments := inner.tail
    let body : Step Unit := do
      if !(← rerouteAll run rs) then
        setStatus 2
        match callee with
        | .builtin _ true => throw .fault
        | _ => return
      else match callee with
        | .nothing => do
          let texts ← assignAll assign
          if !texts.isEmpty then trace errors texts
          setStatus (← theProcess).outputStatus
        | .builtin name special => do
          let act : Step Unit := settleBuiltin name special (callBuiltin fuel tested name arguments)
          if special then
            let exporting := name = "exec" && !arguments.isEmpty
            let texts ← assignAll fun name text => setVariable name (some text) exporting
            trace errors (texts ++ call)
            act
          else withLocals do
            let texts ← ownAssignments
            trace errors (texts ++ call)
            act
        | .function function => withLocals do
          let texts ← ownAssignments
          trace errors (texts ++ call)
          callFunction arguments (execute fuel tested function)
        | .program search => withLocals do
          let texts ← ownAssignments
          trace errors (texts ++ call)
          let path ← valueOf? "PATH"
          let search := if search = some standardPath then search else path
          match ← runProgram fuel search inner with
          | .ok n => setStatus n
          | .error e =>
            warn s!"{name}: {e.asCommand}"
            setStatus (if name.toList.contains '/' then e.commandStatus else 127)
    match callee with
    | .builtin "exec" _ => if arguments.isEmpty then body else keepingStreams body
    | _ => keepingStreams body

/-- Runs a built-in command. -/
def callBuiltin (fuel : Nat) (tested : Bool) (name : String) (arguments : List String) :
    Step Nat :=
  match fuel with
  | 0 => throw .exhausted
  | fuel + 1 => do
    match name with
    | "eval" =>
      if !(← runText fuel tested (" ".intercalate arguments)) then setStatus 0
      status
    | "." =>
      match (← Builtin.takeOptions "" arguments).2 with
      | [] => return 0
      | path :: _ => runFile fuel path
    | "exec" =>
      if arguments.isEmpty then return 0
      match ← runProgram fuel (← valueOf? "PATH") arguments with
      | .ok n =>
        setStatus n
        changeProcess fun p => { p with traps := p.traps.filter (·.1 ≠ 0) }
      | .error e =>
        let program := arguments.headD ""
        warn s!"{program}: {e.asCommand}"
        setStatus e.commandStatus
      throw .leave
    | "wait" =>
      match (← Builtin.takeOptions "" arguments).2 with
      | [] =>
        runDeferred fuel
        return 0
      | words => awaitJobs fuel 127 words
    | _ =>
      match Builtin.builtin? name with
      | some run => run arguments
      | none => return 127

/-- Waits for jobs, and gives the status of the last one. -/
def awaitJobs (fuel : Nat) (last : Nat) (words : List String) : Step Nat :=
  match fuel with
  | 0 => throw .exhausted
  | fuel + 1 => do
    match words with
    | [] => return last
    | word :: rest =>
      let number ← Builtin.processOf word
      runJob fuel number
      match (← get).jobs.find? number with
      | some (.done n) => awaitJobs fuel n rest
      | some (.killed signal) =>
        if let some text := signalObituary signal then complain (text ++ "\n")
        modify fun m => { m with jobs := m.jobs.put number (.done (128 + signal)) }
        awaitJobs fuel (128 + signal) rest
      | _ => awaitJobs fuel 127 rest

/-- Runs the script in a file as a part of the script that is running. -/
def runFile (fuel : Nat) (name : String) : Step Nat :=
  match fuel with
  | 0 => throw .exhausted
  | fuel + 1 => do
    let path ←
      if name.toList.contains '/' then pure name
      else do
        let w ← theWorld
        let folder ← here
        let paths := ((← valueOf? "PATH").map (searchPaths · name)).getD []
        match paths.find? fun path => w.kindOf? folder path = some .file with
        | some path => pure path
        | none => fault s!"{name}: not found"
    match ← readPath path with
    | .error .folder => return 0
    | .error e => fault s!"cannot open {path}: {e.asOpened .read}"
    | .ok text =>
      speaking path do
        match ← catching (runText fuel false text) with
        | .ok ran => if !ran then setStatus 0
        | .error .leaveFunction => return
        | .error j => throw j
      status

/-- Runs what is to be done at a signal. -/
def runTrap (fuel : Nat) (action : String) : Step Unit :=
  match fuel with
  | 0 => throw .exhausted
  | fuel + 1 => do
    let _ ← runText fuel false action

/-- Runs a script, and says whether there was anything in it. -/
def runText (fuel : Nat) (tested : Bool) (text : String) : Step Bool :=
  match fuel with
  | 0 => throw .exhausted
  | fuel + 1 => runReader fuel tested false { rest := text.toList }

/-- Runs what is left of a script, and says whether there was anything in it. -/
def runReader (fuel : Nat) (tested ran : Bool) (reader : Reader) : Step Bool :=
  match fuel with
  | 0 => throw .exhausted
  | fuel + 1 => do
    let m ← get
    let reader := { reader with documents := m.documents, aliases := m.process.aliases }
    match readCommand.run reader with
    | .error reason =>
      changeProcess fun p => { p with line := reason.line }
      fault s!"Syntax error: {reason.what.text}"
    | .ok (none, _) => return ran
    | .ok (some c, reader) =>
      modify fun m => { m with documents := reader.documents }
      match c with
      | .nothing => runReader fuel tested ran reader
      | c =>
        execute fuel tested c
        runReader fuel tested true reader

/-- Runs a program that is found along a search path. -/
def runProgram (fuel : Nat) (search : Option String) (words : List String) :
    Step (Except Trouble Nat) :=
  match fuel with
  | 0 => throw .exhausted
  | fuel + 1 => do
    match words with
    | [] => return .ok 0
    | name :: arguments =>
      match ← findProgram search name with
      | .error e => return .error e
      | .ok (.utility program) => return .ok (← runUtility fuel name program arguments)
      | .ok (.script place path) =>
        match interpreterOf? ((← theWorld).content place) with
        | none => return .ok (← runShell fuel path (path :: arguments))
        | some (interpreter, given) =>
          match ← programOfPath interpreter with
          | .error e => return .error e
          | .ok (.script _ _) => return .error .denied
          | .ok (.utility program) =>
            if shellNames.contains program then
              return .ok (← runShell fuel path (given ++ path :: arguments))
            else return .ok (← runUtility fuel interpreter program (given ++ path :: arguments))

/-- Runs a program of the system under some name. -/
def runUtility (fuel : Nat) (name program : String) (arguments : List String) : Step Nat :=
  match fuel with
  | 0 => throw .exhausted
  | fuel + 1 => do
    if shellNames.contains program then runShell fuel name arguments
    else
      changeProcess fun p => { p with outputTrouble := none }
      let runner : Runner := fun words => do
        let path ← valueOf? "PATH"
        runProgram fuel (some (path.getD "/bin:/usr/bin")) words
      let n ← match utility? program with
        | some run => run runner arguments
        | none => do
          complain s!"{name}: not available\n"
          pure 127
      match (← theProcess).outputTrouble with
      | none => return n
      | some e =>
        complain s!"{name}: write error: {e.text}\n"
        return max n 1

/-- Runs a shell as a program under some name. -/
def runShell (fuel : Nat) (name : String) (arguments : List String) : Step Nat :=
  match fuel with
  | 0 => throw .exhausted
  | fuel + 1 => do
    let process ← freshProcess name
    inChild (runTrap fuel) process do
      let invocation ← readInvocation (arguments.length + 1) { rest := arguments }
      let start (text : String) (positional : List String) : Step Unit := do
        changeProcess fun p => { p with positional }
        let _ ← runText fuel false text
      match invocation.rest with
      | [] =>
        if invocation.command then fault "-c requires an argument"
        match ← readAll 0 with
        | .ok text => start text []
        | .error _ => return
      | first :: rest =>
        if invocation.command then
          match rest with
          | [] => start first []
          | name :: rest =>
            changeProcess fun p => { p with name }
            start first rest
        else if ← isOn 's' then
          match ← readAll 0 with
          | .ok text => start text (first :: rest)
          | .error _ => return
        else
          match ← readPath first with
          | .error .folder => return
          | .error e => fault s!"cannot open {first}: {e.asOpened .read}"
          | .ok text =>
            changeProcess fun p => { p with name := first }
            start text rest

end

end StorageLayout.Shell
