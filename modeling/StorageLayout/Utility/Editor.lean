import StorageLayout.Utility.Encoding
import StorageLayout.Utility.Script

/-!
# The Stream Editor

What a script does to the lines of files.

The editor takes one line after another. It runs the instructions of its script on each, writes what
has become of it, and goes on. What has been put off until the end of a line is written then. A last
line that has no end gets none, unless something is written after it.

## Main definitions

* `Editor`: The state of the editor.
* `Editor.isSelected`: Whether an instruction is for a line.
* `Editor.replace`: A line with matches replaced.
* `Editor.perform`: What a command does.
* `Editor.run`: Runs a script on all lines.
* `editLines`: The program.
-/

namespace StorageLayout.Shell.Utility

open Script (Address RangeEnd Selection Substitution Command Instruction)

/-- A line of the input. -/
structure InputLine where
  text : String
  /-- Whether the line has an end. -/
  ended : Bool
  file : String
  /-- Whether it is the last one of its file. -/
  lastOfFile : Bool

/-- What is written at the end of a line. -/
inductive Delayed where
  | text (s : String)
  | file (path : String)

/-- The state of the editor. -/
structure Editor where
  instructions : Array Instruction
  labels : List (String × Nat)
  silent : Bool := false
  /-- Whether every file is edited on its own. -/
  separate : Bool := false
  separator : Char := '\n'
  /-- How wide lines are that are written so that everything in them can be seen. -/
  width : Nat := 70
  input : List InputLine
  current : InputLine := { text := "", ended := true, file := "-", lastOfFile := true }
  number : Nat := 0
  pattern : List Char := []
  hold : List Char := []
  /-- Whether something has been replaced in this line. -/
  replaced : Bool := false
  delayed : List Delayed := []
  /-- The ranges that are open, by the numbers of their instructions, with the line at which they
  end if that is known. -/
  ranges : List (Nat × Option Nat) := []
  /-- The expression that was used last. -/
  lastExpression : Option Regex := none
  /-- Whether the line written last has no end. -/
  lacksEnd : Bool := false
  /-- The streams of files that are written, by name. -/
  outputs : List (String × Nat) := []
  /-- What is left of files that are read line by line. -/
  inputs : List (String × List String) := []

/-- How the instructions go on. -/
inductive Turn where
  | next
  | jump (n : Nat)
  /-- Ends the line, which is written unless that is not wanted. -/
  | finish (writes : Bool)
  /-- Starts over without taking a line. -/
  | again
  | quit (status : Nat) (writes : Bool)
  /-- There is no expression that was used last. -/
  | lost

namespace Editor

/-- A step of the editor. -/
abbrev Editing := StateT Editor Step

/-- Whether the line is the last one. -/
def isLast (e : Editor) : Bool := e.input.isEmpty || (e.separate && e.current.lastOfFile)

/-- Ends the line that has no end, where more is written. -/
def endLine : Editing Unit := do
  if (← get).lacksEnd then
    say "\n"
    modify fun e => { e with lacksEnd := false }

/-- Writes a text. -/
def writeText (s : String) : Editing Unit := do
  endLine
  say s

/-- Writes a line, which gets an end if the line of the input has one. -/
def writeLine (cs : List Char) : Editing Unit := do
  endLine
  let e ← get
  say (lineOfCharacters cs)
  if e.current.ended then say e.separator.toString
  else modify fun e => { e with lacksEnd := true }

/-- Writes to a file that a command names. -/
def writeTo (path : String) (cs : List Char) : Editing Unit := do
  if path = "/dev/stdout" then writeLine cs
  else
    let e ← get
    match e.outputs.find? (·.1 = path) with
    | some (_, stream) =>
      let text := lineOfCharacters cs ++ (if e.current.ended then "\n" else "")
      let write : Step Unit := keepingStreams do
        bindStream 1 stream
        say text
      write
    | none => return

/-- Writes what has been put off. -/
def flush : Editing Unit := do
  (← get).delayed.forM fun d =>
    match d with
    | .text s => writeText s
    | .file path => do
      match ← readPath path with
      | .ok s => if s ≠ "" then writeText s
      | .error _ => return
  modify fun e => { e with delayed := [] }

/-- Takes the next line, which becomes the current one, and says whether there is one. -/
def advance : Editing Bool := do
  let e ← get
  match e.input with
  | [] => return false
  | line :: rest =>
    let number := if e.separate && e.current.lastOfFile && e.number > 0 then 1 else e.number + 1
    set { e with input := rest, current := line, number }
    return true

/-! ## Selecting -/

/-- Whether an address is that of the current line; nothing if it needs an expression that is not
there. -/
def isAt (a : Address) : Editing (Option Bool) := do
  let e ← get
  match a with
  | .line n => return some (e.number = n)
  | .last => return some e.isLast
  | .every first step =>
    return some (if step = 0 then e.number = first
      else e.number ≥ first && (e.number - first) % step = 0)
  | .matching r m =>
    match r.orElse fun _ => e.lastExpression with
    | none => return none
    | some r =>
      set { e with lastExpression := some r }
      return some (r.find m { rest := e.pattern }).isSome

/-- Opens the range of an instruction, unless it is over at once. -/
def openRange (index : Nat) (stop : RangeEnd) : Editing Unit := do
  let e ← get
  let range : Option (Option Nat) := match stop with
    | .address (.line n) => if n ≤ e.number then none else some (some n)
    | .address .last => if e.isLast then none else some none
    | .address _ => some none
    | .count n => if n = 0 then none else some (some (e.number + n))
    | .multiple n =>
      if n = 0 || e.number % n = 0 then none else some (some ((e.number / n + 1) * n))
  match range with
  | none => return
  | some known => set { e with ranges := (index, known) :: e.ranges }

/-- Closes the range of an instruction. -/
def closeRange (index : Nat) : Editing Unit :=
  modify fun e => { e with ranges := e.ranges.filter (·.1 ≠ index) }

/-- Whether the current line is in the range of an instruction. -/
def isInRange (index : Nat) (start : Address) (stop : RangeEnd) : Editing (Option Bool) := do
  let e ← get
  let isZero := match start with
    | .line 0 => true
    | _ => false
  let known := e.ranges.find? (·.1 = index)
  if known.isNone && !(isZero && e.number = 1) then
    match ← isAt start with
    | none => return none
    | some false => return some false
    | some true =>
      openRange index stop
      return some true
  else
    match (known.bind (·.2)), stop with
    | some last, _ =>
      if e.number ≥ last then closeRange index
      if e.number > last then
        -- Lines were passed over: the range is over, unless it begins again here.
        return some false
      return some true
    | none, .address a =>
      if known.isNone then modify fun e => { e with ranges := (index, none) :: e.ranges }
      match ← isAt a with
      | none => return none
      | some isEnd =>
        if isEnd then closeRange index
        return some true
    | none, _ => return some true

/-- Whether an instruction is for the current line. -/
def isSelected (index : Nat) (s : Selection) : Editing (Option Bool) := do
  let found ← match s.start, s.stop with
    | none, _ => pure (some true)
    | some a, none => isAt a
    | some a, some stop => isInRange index a stop
  return found.map (· != s.negated)

/-! ## Replacing -/

/-- How the case of letters is changed: for the next letter, and for those after it. -/
structure Casing where
  once : Option Char := none
  always : Option Char := none

/-- A character in some case. -/
def Casing.apply (c : Casing) (ch : Char) : Char :=
  match c.once.orElse fun _ => c.always with
  | some 'u' | some 'U' => ch.toUpper
  | some 'l' | some 'L' => ch.toLower
  | _ => ch

/-- Characters in some case. -/
def casedText (c : Casing) : List Char → List Char × Casing
  | [] => ([], c)
  | ch :: rest =>
    let (text, after) := casedText { c with once := none } rest
    (c.apply ch :: text, after)

/-- What takes the place of a match. -/
def filled (found : Regex.Match) : Casing → List Script.Piece → List Char
  | _, [] => []
  | c, .case letter :: rest =>
    match letter with
    | 'E' => filled found {} rest
    | 'u' | 'l' => filled found { c with once := some letter } rest
    | letter => filled found { always := some letter } rest
  | c, .char ch :: rest =>
    let (text, c) := casedText c [ch]
    text ++ filled found c rest
  | c, .group n :: rest =>
    let part := if n = 0 then found.text else (found.stop.group? n).getD []
    let (text, c) := casedText c part
    text ++ filled found c rest

/-- A line with matches replaced, from some place on. `count` is the number of the next match, and
`before` where the match before it ends. -/
def replaceFrom (s : Substitution) (r : Regex) : (fuel : Nat) → (count : Nat) →
    (before : Option Nat) → Regex.Spot → List Char × Bool
  | 0, _, _, spot => (spot.rest, false)
  | fuel + 1, count, before, spot =>
    match r.find s.matching spot with
    | none => (spot.rest, false)
    | some found =>
      let passed := spot.rest.take (found.start.position - spot.position)
      let stop : Regex.Spot := { found.stop with groups := [] }
      if found.text.isEmpty && before = some found.start.position then
        -- Nothing is no match where a match has just ended.
        match stop.rest with
        | [] => (passed, false)
        | c :: rest =>
          let (text, changed) := replaceFrom s r fuel count none (stop.next c rest)
          (passed ++ c :: text, changed)
      else
        let hit := count ≥ s.first
        let new := if hit then filled found {} s.pieces else found.text
        if hit && !s.all then (passed ++ new ++ stop.rest, true)
        else
          let (text, changed) := replaceFrom s r fuel (count + 1) (some stop.position) stop
          (passed ++ new ++ text, hit || changed)

/-- A line with matches replaced, and whether there were any. -/
def replace (s : Substitution) (r : Regex) (line : List Char) : List Char × Bool :=
  replaceFrom s r (2 * line.length + 2) 1 none { rest := line }

/-! ## Commands -/

/-- A line so that everything in it can be seen, broken up at a width. -/
def visibleLine (width : Nat) (cs : List Char) : String :=
  let units := (lineOfCharacters cs).toList.map fun c =>
    match c with
    | '\\' => "\\\\"
    | '\x07' => "\\a"
    | '\x08' => "\\b"
    | '\x0c' => "\\f"
    | '\n' => "\\n"
    | '\r' => "\\r"
    | '\t' => "\\t"
    | '\x0b' => "\\v"
    | c =>
      if 32 ≤ c.toNat && c.toNat < 127 then c.toString else "\\" ++ DumpKind.threeDigits c.toNat
  let (text, _) := units.foldl (fun (text, column) unit =>
    if width > 1 && column + unit.length > width - 1 then (text ++ "\\\n" ++ unit, unit.length)
    else (text ++ unit, column + unit.length)) ("", 0)
  text ++ "$\n"

/-- Takes the next line in place of the current one, or adds it to what there is. Without a line the
editor ends. -/
def takeLine (adds : Bool) : Editing Turn := do
  let e ← get
  if e.input.isEmpty || (e.separate && e.current.lastOfFile) then
    if e.input.isEmpty then return .quit 0 true
    return .finish true
  if !adds && !e.silent then writeLine e.pattern
  flush
  let _ ← advance
  modify fun new =>
    let line := charactersOf new.current.text
    { new with pattern := if adds then e.pattern ++ '\n' :: line else line }
  return .next

/-- Does what a letter stands for. -/
def performLetter (c : Char) : Editing Turn := do
  let e ← get
  match c with
  | '=' => writeText s!"{e.number}\n"
  | 'd' => return .finish false
  | 'D' =>
    if !e.pattern.contains '\n' then return .finish false
    set { e with pattern := (e.pattern.dropWhile (· ≠ '\n')).drop 1 }
    return .again
  | 'F' => writeText (e.current.file ++ "\n")
  | 'g' => set { e with pattern := e.hold }
  | 'G' => set { e with pattern := e.pattern ++ '\n' :: e.hold }
  | 'h' => set { e with hold := e.pattern }
  | 'H' => set { e with hold := e.hold ++ '\n' :: e.pattern }
  | 'n' => return ← takeLine false
  | 'N' => return ← takeLine true
  | 'p' => writeLine e.pattern
  | 'P' => writeText (lineOfCharacters (e.pattern.takeWhile (· ≠ '\n')) ++ "\n")
  | 'x' => set { e with pattern := e.hold, hold := e.pattern }
  | 'z' => set { e with pattern := [] }
  | _ => return .next
  return .next

/-- Goes to a label, or to the end of the instructions. -/
def target (l : Option String) : Editing Turn := do
  let e ← get
  let place := l.bind fun name => (e.labels.find? (·.1 = name)).map (·.2)
  return .jump (place.getD e.instructions.size)

/-- What a command does. -/
def perform (index : Nat) (i : Instruction) : Editing Turn := do
  let e ← get
  match i.command with
  | .block _ | .nothing => return .next
  | .append text =>
    set { e with delayed := e.delayed ++ [Delayed.text text] }
    return .next
  | .insert text =>
    writeText text
    return .next
  | .change text =>
    let isOpen := i.selection.stop.isSome && e.ranges.any (·.1 = index)
    if !isOpen || i.selection.negated then writeText text
    return .finish false
  | .branch l => target l
  | .branchIf wanted l =>
    set { e with replaced := false }
    if e.replaced = wanted then target l else return .next
  | .substitute s =>
    match s.expression.orElse fun _ => e.lastExpression with
    | none => return .lost
    | some r =>
      let (text, changed) := replace s r e.pattern
      set { e with pattern := text, replaced := e.replaced || changed, lastExpression := some r }
      if changed then
        if s.prints then writeLine text
        if let some path := s.file then writeTo path text
      return .next
  | .translate table =>
    let change (c : Char) : Char := ((table.find? (·.1 = c)).map (·.2)).getD c
    set { e with pattern := e.pattern.map change }
    return .next
  | .readFile path =>
    set { e with delayed := e.delayed ++ [Delayed.file path] }
    return .next
  | .readLine path =>
    let lines ← match e.inputs.find? (·.1 = path) with
      | some (_, lines) => pure lines
      | none =>
        match ← readPath path with
        | .ok text => pure (linesOf text)
        | .error _ => pure []
    let delayed := lines.head?.toList.map fun line => Delayed.text (line ++ "\n")
    set { e with
      delayed := e.delayed ++ delayed
      inputs := (path, lines.tail) :: e.inputs.filter (·.1 ≠ path) }
    return .next
  | .writeFile path =>
    writeTo path e.pattern
    return .next
  | .writeLine path =>
    writeTo path (e.pattern.takeWhile (· ≠ '\n'))
    return .next
  | .quit status silent => return .quit status !silent
  | .list width =>
    writeText (visibleLine (width.getD e.width) e.pattern)
    return .next
  | .letter c => performLetter c

/-! ## Running -/

/-- Ends a line: it is written, unless that is not wanted, with what has been put off. -/
def finishLine (writes : Bool) : Editing Unit := do
  let e ← get
  if writes && !e.silent then writeLine e.pattern
  flush

/-- Runs instructions from some place on, and says how the line ends. -/
def runLine : (fuel : Nat) → (index : Nat) → Editing Turn
  | 0, _ => return .quit 1 false
  | fuel + 1, index => do
    match (← get).instructions[index]? with
    | none => return .finish true
    | some i =>
      match ← isSelected index i.selection with
      | none => return .lost
      | some false =>
        match i.command with
        | .block stop => runLine fuel stop
        | _ => runLine fuel (index + 1)
      | some true =>
        match ← perform index i with
        | .next => runLine fuel (index + 1)
        | .jump n => runLine fuel n
        | turn => return turn

/-- Runs the script on all lines. `takes` says whether a line is taken first. -/
def runFrom : (fuel : Nat) → (takes : Bool) → Editing Nat
  | 0, _ => return 1
  | fuel + 1, takes => do
    if takes then
      if !(← advance) then return 0
      modify fun e => { e with pattern := charactersOf e.current.text }
    modify fun e => { e with replaced := if takes then false else e.replaced }
    match ← runLine (fuel + 1000) 0 with
    | .finish writes =>
      finishLine writes
      runFrom fuel true
    | .again =>
      flush
      runFrom fuel false
    | .quit status writes =>
      if writes then finishLine true
      return status
    | .lost =>
      complain "sed: -e expression #1, char 0: no previous regular expression\n"
      return 1
    | .next | .jump _ => runFrom fuel true

/-- Runs the script on all lines. -/
def run : Editing Nat := do
  runFrom ((← get).input.length * 1000 + 10000) true

end Editor

/-! ## The program -/

/-- A piece of a script: a text, or the name of the file that it is from. -/
structure ScriptPart where
  file : Option String
  text : List Char

/-- Where a script is wrong: in which piece, and where in it. -/
def placeInScript (parts : List ScriptPart) (read : Nat) : String := go 1 read parts
where
  /-- Looks for the piece. -/
  go (expression : Nat) (read : Nat) : List ScriptPart → String
    | [] => ""
    | p :: rest =>
      if read ≤ p.text.length || rest.isEmpty then
        match p.file with
        | some name =>
          let line := (p.text.take read).count '\n' + 1
          s!"file {name} line {line}"
        | none => s!"-e expression #{expression}, char {read}"
      else
        go (if p.file.isNone then expression + 1 else expression) (read - p.text.length - 1) rest

/-- The options of the program. -/
def editOptions : OptionTable where
  program := "sed"
  letters := "Ee:f:i::l:nrsuzDPF"
  long := [("quiet", 'n'), ("silent", 'n'), ("expression", 'e'), ("file", 'f'), ("in-place", 'i'),
    ("regexp-extended", 'E'), ("separate", 's'), ("unbuffered", 'u'), ("null-data", 'z'),
    ("line-length", 'l'), ("posix", 'P'), ("debug", 'D'), ("follow-symlinks", 'F')]

/-- The lines of a file as the editor takes them. -/
def inputLines (separator : Char) (file text : String) : List InputLine :=
  let pieces := text.splitOn separator.toString
  let ended := pieces.getLast? = some ""
  let texts := if ended then pieces.dropLast else pieces
  let count := texts.length
  texts.zipIdx.map fun (text, n) =>
    { text, ended := ended || n + 1 < count, file, lastOfFile := n + 1 = count }

/-- The pieces of a script that options give, or the first operand, with the other operands. -/
def scriptParts (given : GivenOptions) : Step (Except String (List ScriptPart × List String)) := do
  let explicit := given.options.filter fun o => o.1 = 'e' || o.1 = 'f'
  let partOf (o : Char × String) : Step (Except String ScriptPart) := do
    if o.1 = 'e' then return .ok ⟨none, charactersOf o.2⟩
    match ← readOperand o.2 with
    | .ok text =>
      let text := if text.toList.getLast? = some '\n' then text.toList.dropLast else text.toList
      return .ok ⟨some o.2, charactersOf (String.ofList text)⟩
    | .error e => return .error s!"couldn't open file {o.2}: {e.text}"
  let parts ← explicit.mapM partOf
  match explicit, given.operands with
  | [], [] => return .error ""
  | [], script :: files => return .ok ([⟨none, charactersOf script⟩], files)
  | _, files =>
    let all : Except String (List ScriptPart) := parts.mapM id
    return all.map (·, files)

/-- The files that a script writes to. -/
def writtenFiles (program : Script.Program) : List String :=
  (program.instructions.toList.filterMap fun i => match i.command with
    | .writeFile path | .writeLine path => some path
    | .substitute s => s.file
    | _ => none).eraseDups

/-- Opens the files that a script writes to. -/
def openOutputs (paths : List String) : Step (List (String × Nat)) := do
  let opened ← paths.mapM fun path => do
    match ← openPath path .overwrite with
    | .ok index => return some (path, index)
    | .error e =>
      tell "sed" s!"couldn't open file {path}" e
      return none
  return opened.filterMap id

/-- Edits files in their places: what is written becomes their content. -/
def editInPlace (editor : Editor) (suffix : String) (files : List String) : Step Nat := do
  let (status, _) ← files.foldlM (fun (status, ended) file => do
    if ended then return (status, ended)
    let w ← theWorld
    match w.walk (← here) file true with
    | .error e =>
      tell "sed" s!"can't read {file}" e
      return (max status 2, false)
    | .ok t =>
      if w.kind? t ≠ some .file then
        complain s!"sed: couldn't edit {file}: not a regular file\n"
        return (max status 4, false)
      let text := w.content t
      let mode := w.mode t
      let input := inputLines editor.separator file text
      let (output, result) ← collecting (Editor.run.run { editor with input, separate := true })
      let (n, rest) := result
      -- What the editor did not take any more stays as it is.
      let left := rest.input.map fun l => l.text ++ (if l.ended then "\n" else "")
      if suffix ≠ "" then
        let _ ← writePath (file ++ suffix) text .overwrite
      changeWorld fun w => (w.write t (output ++ String.join left)).setMode t mode
      return (if n ≠ 0 then n else status, n ≠ 0)) (0, false)
  return status

/-- Edits the lines of files. -/
def editLines : Utility := fun _ arguments => do
  match editOptions.readFrom (arguments.length + 1) arguments with
  | .error reason =>
    complain s!"sed: {reason}\n"
    usage
  | .ok given =>
    match ← scriptParts given with
    | .error "" => usage
    | .error reason =>
      complain s!"sed: {reason}\n"
      return 1
    | .ok (parts, files) =>
      let text := "\n".toList.intercalate (parts.map (·.text))
      let extended := given.has 'E' || given.has 'r'
      match Script.read { extended, escapes := true, strict := extended } text with
      | .error fault =>
        let said := match fault with
          | .wrong left reason => s!"{placeInScript parts (text.length - left)}: {reason}"
          | .anywhere reason => s!"{placeInScript parts 0}: {reason}"
          | .noLabel name => s!"can't find label for jump to \x60{name}'"
        complain s!"sed: {said}\n"
        return 1
      | .ok program =>
        let isSilentMark := match text with
          | ['#', 'n'] => true
          | '#' :: 'n' :: '\n' :: _ => true
          | _ => false
        let separator := if given.has 'z' then '\x00' else '\n'
        let outputs ← openOutputs ((writtenFiles program).filter (· ≠ "/dev/stdout"))
        let editor : Editor :=
          { instructions := program.instructions, labels := program.labels
            silent := given.has 'n' || isSilentMark
            separate := given.has 's'
            separator
            width := ((given.text? 'l').bind natural?).getD 70
            input := [], outputs }
        if given.has 'i' then return (← editInPlace editor ((given.text? 'i').getD "") files)
        editAll editor files
where
  /-- Says how the program is used. -/
  usage : Step Nat := do
    complain "Usage: sed [OPTION]... \x7bscript-only-if-no-other-script\x7d [input-file]...\n"
    return 1
  /-- Edits files one after another. -/
  editAll (editor : Editor) (files : List String) : Step Nat := do
    let files := if files.isEmpty then ["-"] else files
    let found ← files.mapM fun file => do
      match ← readOperand file with
      | .ok text => return (inputLines editor.separator file text, 0)
      | .error .folder =>
        tell "sed" s!"read error on {file}" .folder
        return ([], 4)
      | .error e =>
        tell "sed" s!"can't read {file}" e
        return ([], 2)
    let failure := (found.map (·.2)).foldl max 0
    let (n, _) ← Editor.run.run { editor with input := (found.map (·.1)).flatten }
    return if n ≠ 0 then n else failure

end StorageLayout.Shell.Utility
