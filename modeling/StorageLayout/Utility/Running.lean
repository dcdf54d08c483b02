import StorageLayout.Utility.Words

/-!
# Programs that Run Others

Programs that run other programs: in another environment, with arguments from the input, or for a
limited time.

## Main definitions

* `runInEnvironment`: A program in another environment.
* `inputWords`: The arguments that an input has.
* `runOnInput`: A program with arguments from the input.
* `runLimited`, `runDetached`, `runGently`: A program as it is.
* `wait`: Waits.
-/

namespace StorageLayout.Shell.Utility

/-! ## Environments -/

/-- Takes what sets variables from the start of words. -/
def leadingAssignments : List String → List (String × String) × List String
  | word :: rest =>
    match word.splitOn "=" with
    | name :: v :: vs =>
      if name = "" then ([], word :: rest)
      else
        let (others, words) := leadingAssignments rest
        ((name, "=".intercalate (v :: vs)) :: others, words)
    | _ => ([], word :: rest)
  | [] => ([], [])

/-- Runs a program in another environment, or writes the environment. -/
def runInEnvironment : Utility := fun run arguments =>
  let table : OptionTable :=
    { program := "env", letters := "0iu:C:S:v", inOrder := true, misuse := 125
      long := [("ignore-environment", 'i'), ("unset", 'u'), ("null", '0'), ("chdir", 'C'),
        ("split-string", 'S')] }
  table.read arguments fun given => do
    let isEmpty := given.has 'i' || given.operands.head? = some "-"
    let split := ((given.text? 'S').map fun s => (s.splitOn " ").filter (· ≠ "")).getD []
    let words := split ++ (if given.operands.head? = some "-" then given.operands.tail
      else given.operands)
    let (assignments, words) := leadingAssignments words
    let before ← theProcess
    let unwanted := (given.options.filter (·.1 = 'u')).map (·.2)
    let kept := before.vars.filter fun e => !isEmpty && !unwanted.contains e.1
    let set (vs : Assoc String Variable) (a : String × String) : Assoc String Variable :=
      vs.put a.1 { value := some a.2, exported := true }
    inProcess { before with vars := assignments.foldl set kept } do
      match words with
      | [] => writeVariables run []
      | name :: _ =>
        match ← run words with
        | .ok n => return n
        | .error e =>
          tell "env" (curlyQuoted name) e
          return if e = .missing then 127 else 126

/-! ## Arguments from the input -/

/-- Adds a character to the argument that is being read. -/
def addToWord (word : Option (List Char)) (c : Char) : Option (List Char) :=
  some (c :: word.getD [])

/-- The argument that is being read, at its end. -/
def endWord (word : Option (List Char)) : List String :=
  (word.map fun cs => String.ofList cs.reverse).toList

/-- The arguments in an input, with the ends of lines as arguments of their own that are not there.
A quote that is not closed is told. -/
def cutInput (byLine : Bool) (word : Option (List Char)) :
    (fuel : Nat) → List Char → Except String (List (Option String))
  | 0, _ => .ok ((endWord word).map some)
  | _, [] => .ok ((endWord word).map some)
  | fuel + 1, c :: rest => do
    if c = '\n' then
      return (endWord word).map some ++ none :: (← cutInput byLine none fuel rest)
    else if (c = ' ' || c = '\t') && (!byLine || word.isNone) then
      return (endWord word).map some ++ (← cutInput byLine none fuel rest)
    else if c = '\\' then
      match rest with
      | d :: rest => cutInput byLine (addToWord word d) fuel rest
      | [] => return (endWord word).map some
    else if c = '\x27' || c = '"' then
      let quoted := rest.takeWhile fun d => d ≠ c && d ≠ '\n'
      let kind := if c = '"' then "double" else "single"
      match rest.drop quoted.length with
      | d :: after =>
        if d ≠ c then
          throw (s!"unmatched {kind} quote; by default quotes are special to xargs unless you "
            ++ "use the -0 option")
        cutInput byLine (some (quoted.reverse ++ word.getD [])) fuel after
      | [] =>
        throw (s!"unmatched {kind} quote; by default quotes are special to xargs unless you "
          ++ "use the -0 option")
    else cutInput byLine (addToWord word c) fuel rest

/-- Arguments in groups, one for each line that has any. -/
def lineGroups : List (Option String) → List (List String)
  | [] => []
  | none :: rest => [] :: lineGroups rest
  | some word :: rest =>
    match lineGroups rest with
    | group :: groups => (word :: group) :: groups
    | [] => [[word]]

/-- Things in groups of a size. -/
def inGroups {α : Type} (size : Nat) : (fuel : Nat) → List α → List (List α)
  | 0, _ => []
  | _, [] => []
  | fuel + 1, xs => xs.take size :: inGroups size fuel (xs.drop size)

/-- Runs commands one after another, and says how they ended together. A status of 255 ends it. -/
def runEach (run : Runner) (traced : Bool) : List (List String) → (status : Nat) → Step Nat
  | [], status => return status
  | words :: rest, status => do
    let name := words.headD ""
    if traced then complain (" ".intercalate words ++ "\n")
    let index ← openStream { channel := .nowhere }
    let result ← keepingStreams do
      bindStream 0 index
      run words
    match result with
    | .error e =>
      tell "xargs" name e
      return if e = .missing then 127 else 126
    | .ok 255 =>
      complain s!"xargs: {name}: exited with status 255; aborting\n"
      return 124
    | .ok n => runEach run traced rest (if n = 0 then status else 123)

/-- The options of the program that takes arguments from its input. -/
def inputOptions : OptionTable where
  program := "xargs"
  letters := "0a:d:E:I:i::L:n:oP:prs:tx"
  long := [("null", '0'), ("arg-file", 'a'), ("delimiter", 'd'), ("replace", 'i'),
    ("max-lines", 'L'), ("max-args", 'n'), ("no-run-if-empty", 'r'), ("verbose", 't'),
    ("max-procs", 'P')]
  inOrder := true

/-- Runs a program with arguments from the input. -/
def runOnInput : Utility := fun run arguments =>
  inputOptions.read arguments fun given => do
    let command := if given.operands.isEmpty then ["echo"] else given.operands
    let placeholder := (given.text? 'I').orElse fun _ =>
      (given.text? 'i').map fun s => if s = "" then "{}" else s
    match ← (match given.text? 'a' with
      | some path => readPath path
      | none => readAll 0) with
    | .error e =>
      tell "xargs" "read error" e
      return 1
    | .ok text =>
      let separator := if given.has '0' then some '\x00'
        else (given.text? 'd').map fun d =>
          if d = "\\n" then '\n' else if d = "\\0" then '\x00' else d.toList.headD '\n'
      let cut : Except String (List (List String)) := match separator with
        | some c =>
          let pieces := text.splitOn c.toString
          let pieces := if pieces.getLast? = some "" then pieces.dropLast else pieces
          .ok (pieces.map ([·]))
        | none =>
          (cutInput placeholder.isSome none (text.length + 1) text.toList).map lineGroups
      match cut with
      | .error reason =>
        complain s!"xargs: {reason}\n"
        return 1
      | .ok groups =>
        let groups := groups.filter (!·.isEmpty)
        let traced := given.has 't'
        match placeholder with
        | some p =>
          let commands := groups.map fun group =>
            let line := " ".intercalate group
            command.map fun word => line.intercalate (word.splitOn p)
          runEach run traced commands 0
        | none =>
          let words := groups.flatten
          let number (c : Char) : Option Nat := ((given.text? c).bind natural?).filter (· > 0)
          let chunks := match number 'L', number 'n' with
            | some n, _ => (inGroups n groups.length groups).map List.flatten
            | none, some n => inGroups n words.length words
            | none, none => if words.isEmpty then [] else [words]
          let chunks := if chunks.isEmpty && !given.has 'r' then [[]] else chunks
          runEach run traced (chunks.map (command ++ ·)) 0

/-! ## Programs as they are -/

/-- A duration in thousandths of a second. -/
def duration? (word : String) : Option Nat :=
  let cs := word.toList
  let (body, unit) := match cs.getLast? with
    | some 's' => (cs.dropLast, 1)
    | some 'm' => (cs.dropLast, 60)
    | some 'h' => (cs.dropLast, 3600)
    | some 'd' => (cs.dropLast, 86400)
    | _ => (cs, 1)
  match decimalAt? body with
  | some (_, _, []) =>
    (scientificNumber? body).map fun r => ((r * (1000 * (unit : Int) : Int)).floor).toNat
  | _ => none

/-- Waits. No time passes where nothing can be told from it. -/
def wait : Utility := fun _ arguments =>
  let table : OptionTable := { program := "sleep", letters := "" }
  table.read arguments fun given => do
    if given.operands.isEmpty then return (← table.refuse "missing operand")
    match given.operands.filter fun w => (duration? w).isNone with
    | [] => return 0
    | wrong =>
      let list := "\nsleep: ".intercalate (wrong.map fun w =>
        s!"invalid time interval {curlyQuoted w}")
      table.refuse list

/-- Runs a program under a limit of time. Only waiting takes time. -/
def runLimited : Utility := fun run arguments =>
  let table : OptionTable :=
    { program := "timeout", letters := "k:s:v", inOrder := true, misuse := 125
      long := [("kill-after", 'k'), ("signal", 's'), ("preserve-status", 'v'),
        ("foreground", 'v')] }
  table.read arguments fun given => do
    match given.operands with
    | [] | [_] =>
      complain "Try 'timeout --help' for more information.\n"
      return 125
    | limit :: words =>
      match duration? limit with
      | none => table.refuse s!"invalid time interval {curlyQuoted limit}"
      | some most =>
        let needed := match words with
          | "sleep" :: times => ((times.filterMap duration?).foldl (· + ·) 0)
          | _ => 0
        if most > 0 && needed > most then return 124
        match ← run words with
        | .ok n => return n
        | .error e =>
          let name := words.headD ""
          tell "timeout" s!"failed to run command {curlyQuoted name}" e
          return if e = .missing then 127 else 126

/-- Runs a program that is to go on when its terminal is gone. -/
def runDetached : Utility := fun run arguments => do
  match arguments with
  | [] =>
    complain "nohup: missing operand\nTry 'nohup --help' for more information.\n"
    return 125
  | name :: _ =>
    match ← run arguments with
    | .ok n => return n
    | .error e =>
      tell "nohup" s!"failed to run command {alwaysQuoted name}" e
      return if e = .missing then 127 else 126

/-- Runs a program that gives way to others. -/
def runGently : Utility := fun run arguments =>
  let table : OptionTable :=
    { program := "nice", letters := "n:", inOrder := true, misuse := 125
      long := [("adjustment", 'n')] }
  table.read arguments fun given => do
    match given.operands with
    | [] =>
      say "0\n"
      return 0
    | name :: _ =>
      match ← run given.operands with
      | .ok n => return n
      | .error e =>
        tell "nice" (curlyQuoted name) e
        return if e = .missing then 127 else 126

/-- How many lines a program writes that would write for ever. -/
def endlessLines : Nat := 5000

/-- Writes a line again and again. -/
def repeatLine : Utility := fun _ arguments => do
  let line := (if arguments.isEmpty then "y" else " ".intercalate arguments) ++ "\n"
  say (String.join (List.replicate endlessLines line))
  return 0

end StorageLayout.Shell.Utility
