import StorageLayout.Utility.Regex

/-!
# Scripts of the Stream Editor

How a script for the stream editor is written.

A script is a list of instructions. Each has a command and says which lines it is for. Blocks are
instructions, too: the one that opens a block knows where it ends, so that it can be passed over.

A script can come in pieces. What is wrong with it is told with the piece and how much of the piece
had been read.

## Main definitions

* `Script.Address`, `Script.Selection`: The lines that an instruction is for.
* `Script.Command`: What is done.
* `Script.Instruction`: A command with its lines.
* `Script.read`: The instructions that a text makes.
-/

namespace StorageLayout.Shell.Script

/-- A line, or lines, of the input. -/
inductive Address where
  | line (n : Nat)
  | last
  /-- A line, and every one after it by a step. -/
  | every (first step : Nat)
  /-- Lines that an expression matches; nothing stands for the expression that was used last. -/
  | matching (r : Option Regex) (m : Regex.Matching)
deriving Inhabited

/-- Where a range of lines ends. -/
inductive RangeEnd where
  | address (a : Address)
  | count (n : Nat)
  /-- A line whose number is a multiple. -/
  | multiple (n : Nat)

/-- The lines that an instruction is for. -/
structure Selection where
  start : Option Address := none
  stop : Option RangeEnd := none
  negated : Bool := false

/-- A piece of what takes the place of a match. -/
inductive Piece where
  | char (c : Char)
  | group (n : Nat)
  /-- Changes the case of what follows, as the letter says. -/
  | case (letter : Char)
deriving Repr, DecidableEq

/-- Puts something in place of matches. -/
structure Substitution where
  expression : Option Regex
  matching : Regex.Matching
  pieces : List Piece
  /-- The first match that is replaced, counted from one. -/
  first : Nat := 1
  /-- Whether all matches after it are replaced, too. -/
  all : Bool := false
  prints : Bool := false
  file : Option String := none

/-- What is done. -/
inductive Command where
  /-- Opens a block, which ends before the instruction of a number. -/
  | block (stop : Nat)
  | nothing
  | append (text : String)
  | insert (text : String)
  | change (text : String)
  /-- Goes to the instruction of a label, or to the end. -/
  | branch (label : Option String)
  /-- The same, if something has been replaced, or if nothing has. -/
  | branchIf (replaced : Bool) (label : Option String)
  | substitute (s : Substitution)
  | translate (table : List (Char × Char))
  | readFile (path : String)
  | readLine (path : String)
  | writeFile (path : String)
  | writeLine (path : String)
  | quit (status : Nat) (silent : Bool)
  | list (width : Option Nat)
  /-- A command that is no more than its letter. -/
  | letter (c : Char)
deriving Inhabited

/-- A command with its lines. -/
structure Instruction where
  selection : Selection
  command : Command

/-- The instructions of a script, and where its labels are. -/
structure Program where
  instructions : Array Instruction := #[]
  labels : List (String × Nat) := []

/-! ## Reading -/

/-- What is wrong with a script. -/
inductive Fault where
  /-- With how many characters are left. -/
  | wrong (left : Nat) (reason : String)
  /-- Where the place does not matter. -/
  | anywhere (reason : String)
  | noLabel (label : String)
deriving Repr

/-- A step of reading. -/
abbrev Reader := StateT (List Char) (Except Fault)

/-- Stops with a reason. -/
def refuse {α : Type} (reason : String) : Reader α := do
  throw (.wrong (← get).length reason)

/-- Takes the next character. -/
def next? : Reader (Option Char) := do
  match ← get with
  | [] => return none
  | c :: rest =>
    set rest
    return some c

/-- Takes the next character that is no blank. -/
def nextAfterBlanks? : Reader (Option Char) := do
  modify fun cs => cs.dropWhile fun c => c = ' ' || c = '\t'
  next?

/-- Puts a character back. -/
def putBack (c : Option Char) : Reader Unit :=
  modify fun cs => c.toList ++ cs

/-- Takes what follows while it is of some kind. -/
def takeWhile (p : Char → Bool) : Reader (List Char) := do
  let cs ← get
  let taken := cs.takeWhile p
  set (cs.drop taken.length)
  return taken

/-- The end of an expression in brackets, in which a delimiter has no meaning. -/
def bracketLength (cs : List Char) : Nat :=
  let body := match cs with
    | '^' :: ']' :: _ => 2
    | '^' :: _ => 1
    | ']' :: _ => 1
    | _ => 0
  let rest := cs.drop body
  let inside := go rest.length rest
  body + inside
where
  /-- How many characters there are up to the closing bracket, it included. -/
  go : (fuel : Nat) → List Char → Nat
    | 0, _ => 0
    | _, [] => 0
    | fuel + 1, '[' :: mark :: rest =>
      if mark = ':' || mark = '.' || mark = '=' then
        let name := rest.takeWhile fun c => c ≠ mark
        match rest.drop name.length with
        | _ :: ']' :: after => 2 + name.length + 2 + go fuel after
        | _ => 1 + go fuel (mark :: rest)
      else 1 + go fuel (mark :: rest)
    | _, ']' :: _ => 1
    | fuel + 1, _ :: rest => 1 + go fuel rest

/-- The text up to a delimiter. A backslash takes the delimiter its meaning, and in an expression
brackets do. Nothing if there is no delimiter. -/
def delimited (delimiter : Char) (isExpression : Bool) : (fuel : Nat) → List Char →
    Except (List Char) (List Char × List Char)
  | 0, cs => .error cs
  | _, [] => .error []
  | fuel + 1, c :: rest =>
    let add (text : List Char) (rest : List Char) := do
      let (more, after) ← delimited delimiter isExpression fuel rest
      return (text ++ more, after)
    if c = '\n' then (if isExpression then .error (c :: rest) else .error (c :: rest))
    else if c = delimiter then .ok ([], rest)
    else if c = '\\' then
      match rest with
      | [] => .error []
      | e :: rest =>
        if e = delimiter then add (if !isExpression && e = '&' then ['\\', e] else [e]) rest
        else if e = 'n' && isExpression then add ['\n'] rest
        else if e = '\n' && isExpression then add ['\n'] rest
        else add ['\\', e] rest
    else if c = '[' && isExpression then
      let length := bracketLength rest
      let body := rest.take length
      if body.contains '\n' then .error (rest.dropWhile (· ≠ '\n'))
      else add ('[' :: lineFeeds body) (rest.drop length)
    else add [c] rest
where
  /-- A list in brackets with its escaped line feeds replaced. -/
  lineFeeds : List Char → List Char
    | '\\' :: 'n' :: rest => '\n' :: lineFeeds rest
    | c :: rest => c :: lineFeeds rest
    | [] => []

/-- Takes the text up to a delimiter. -/
def takeDelimited (delimiter : Char) (isExpression : Bool) (reason : String) :
    Reader (List Char) := do
  let cs ← get
  match delimited delimiter isExpression (cs.length + 1) cs with
  | .ok (text, rest) =>
    set rest
    return text
  | .error rest =>
    set rest
    refuse reason

/-- How expressions are written in a script. -/
abbrev Dialect := Regex.Dialect

/-- An expression, with the number of its groups; nothing for the one that was used last. -/
def expression (d : Dialect) (text : List Char) : Reader (Option (Regex × Nat)) := do
  if text.isEmpty then return none
  match Regex.read d text with
  | .ok found => return some found
  | .error reason => refuse reason

/-- The number that digits are. -/
def number (ds : List Char) : Nat := ((String.ofList ds).toNat?).getD 0

/-- The letters after an expression. -/
def matchingFlags : (fuel : Nat) → Regex.Matching → Reader Regex.Matching
  | 0, m => return m
  | fuel + 1, m => do
    match ← nextAfterBlanks? with
    | some 'I' => matchingFlags fuel { m with ignoreCase := true }
    | some 'M' => matchingFlags fuel { m with byLine := true }
    | c =>
      putBack c
      return m

/-- The address that begins with a character. -/
def address? (d : Dialect) : Option Char → Reader (Option Address)
  | some '$' => return some .last
  | some '/' => matching '/'
  | some '\\' => do
    match ← next? with
    | some c => matching c
    | none => refuse "unexpected \x60,'"
  | some c => do
    if !c.isDigit then
      putBack (some c)
      return none
    let n := number (c :: (← takeWhile Char.isDigit))
    match ← nextAfterBlanks? with
    | some '~' => return some (.every n (number (← takeWhile Char.isDigit)))
    | c =>
      putBack c
      return some (.line n)
  | none => return none
where
  /-- An address that an expression makes. -/
  matching (delimiter : Char) : Reader (Option Address) := do
    let text ← takeDelimited delimiter true "unterminated address regex"
    let m ← matchingFlags 4 {}
    return some (.matching ((← expression d text).map (·.1)) m)

/-- The end of a range. -/
def rangeEnd (d : Dialect) : Reader RangeEnd := do
  match ← nextAfterBlanks? with
  | some '+' => return .count (number (← takeWhile Char.isDigit))
  | some '~' => return .multiple (number (← takeWhile Char.isDigit))
  | c =>
    match ← address? d c with
    | some a => return .address a
    | none =>
      let _ ← next?
      refuse "unexpected \x60,'"

/-- The lines that the next command is for, and the character that it begins with. -/
def selection (d : Dialect) : Reader (Selection × Option Char) := do
  let first ← nextAfterBlanks?
  if first = some '+' || first = some '~' then
    let _ ← takeWhile Char.isDigit
    refuse "invalid usage of +N or ~N as first address"
  match ← address? d first with
  | none => withBang {} (← nextAfterBlanks?)
  | some start =>
    match ← nextAfterBlanks? with
    | some ',' =>
      let stop ← rangeEnd d
      let next ← nextAfterBlanks?
      let isExpression := match stop with
        | .address (.matching _ _) => true
        | _ => false
      if isZero start && !isExpression then refuse "invalid usage of line address 0"
      withBang { start := some start, stop := some stop } next
    | c =>
      if isZero start then refuse "invalid usage of line address 0"
      withBang { start := some start } c
where
  /-- Whether an address is the line before the first one. -/
  isZero : Address → Bool
    | .line 0 => true
    | _ => false
  /-- Reads what denies a selection. -/
  withBang (s : Selection) (c : Option Char) : Reader (Selection × Option Char) := do
    match c with
    | some '!' =>
      match ← nextAfterBlanks? with
      | some '!' => refuse "multiple \x60!'s"
      | c => return ({ s with negated := true }, c)
    | c => return (s, c)

/-- Takes the end of a command. -/
def commandEnd : Reader Unit := do
  match ← nextAfterBlanks? with
  | none | some '\n' | some ';' => return
  | some '}' => putBack (some '}')
  | some '#' => putBack (some '#')
  | some _ => refuse "extra characters after command"

/-- A label. -/
def label : Reader String := do
  match ← nextAfterBlanks? with
  | none => return ""
  | c =>
    putBack c
    let cs ← takeWhile fun c => c ≠ '\n' && c ≠ ';' && c ≠ ' ' && c ≠ '\t' && c ≠ '}'
    return String.ofList cs

/-- The name of a file, up to the end of the line. -/
def fileName : Reader String := do
  match ← nextAfterBlanks? with
  | none => refuse "missing filename in r/R/w/W commands"
  | c =>
    putBack c
    let cs ← takeWhile (· ≠ '\n')
    if cs.isEmpty then refuse "missing filename in r/R/w/W commands"
    return String.ofList cs

/-- A control character that a letter after a backslash stands for. -/
def control? : Char → Option Char
  | 'a' => some '\x07'
  | 'f' => some '\x0c'
  | 'n' => some '\n'
  | 'r' => some '\r'
  | 't' => some '\t'
  | 'v' => some '\x0b'
  | _ => none

/-- The lines of a text that a command has, up to the end of a line that no backslash ends. -/
def textLines : List Char → List Char × List Char
  | [] => ([], [])
  | '\n' :: rest => ([], rest)
  | '\\' :: c :: rest =>
    let (text, after) := textLines rest
    ((if c = '\n' then '\n' else (control? c).getD c) :: text, after)
  | ['\\'] => ([], [])
  | c :: rest =>
    let (text, after) := textLines rest
    (c :: text, after)

/-- The text that a command has. It stands on the next line after a backslash, or on the same one.
-/
def ownText : Reader String := do
  match ← nextAfterBlanks? with
  | none => refuse "expected \\ after \x60a', \x60c' or \x60i'"
  | some '\\' =>
    let cs ← get
    let blanks := cs.takeWhile fun c => c = ' ' || c = '\t'
    match cs.drop blanks.length with
    | [] =>
      set ([] : List Char)
      return ""
    | '\n' :: rest => set rest
    | rest => set (if blanks.isEmpty then rest else cs)
    finish
  | c =>
    putBack c
    finish
where
  /-- Takes the lines of the text. -/
  finish : Reader String := do
    let (text, rest) := textLines (← get)
    set rest
    return String.ofList text ++ "\n"

/-- The pieces of what takes the place of a match. -/
def pieces : List Char → List Piece
  | '\\' :: c :: rest =>
    if c.isDigit then .group (c.toNat - 48) :: pieces rest
    else if ['L', 'U', 'E', 'l', 'u'].contains c then .case c :: pieces rest
    else .char ((control? c).getD c) :: pieces rest
  | '&' :: rest => .group 0 :: pieces rest
  | c :: rest => .char c :: pieces rest
  | [] => []

/-- The letters and the number after a substitution. -/
def substitutionFlags : (fuel : Nat) → (hasNumber : Bool) → Substitution → Reader Substitution
  | 0, _, s => return s
  | fuel + 1, hasNumber, s => do
    match ← next? with
    | none | some '\n' | some ';' => return s
    | some '}' =>
      putBack (some '}')
      return s
    | some '#' =>
      putBack (some '#')
      return s
    | some 'g' =>
      if s.all then refuse "multiple \x60g' options to \x60s' command"
      substitutionFlags fuel hasNumber { s with all := true }
    | some 'p' =>
      if s.prints then refuse "multiple \x60p' options to \x60s' command"
      substitutionFlags fuel hasNumber { s with prints := true }
    | some 'i' | some 'I' =>
      substitutionFlags fuel hasNumber { s with matching := { s.matching with ignoreCase := true } }
    | some 'm' | some 'M' =>
      substitutionFlags fuel hasNumber { s with matching := { s.matching with byLine := true } }
    | some 'w' => return { s with file := some (← fileName) }
    | some ' ' => substitutionFlags fuel hasNumber s
    | some c =>
      if !c.isDigit then refuse "unknown option to \x60s'"
      if hasNumber then refuse "multiple number options to \x60s' command"
      let n := number (c :: (← takeWhile Char.isDigit))
      if n = 0 then refuse "number option to \x60s' command may not be zero"
      substitutionFlags fuel true { s with first := n }

/-- A substitution. -/
def substitution (d : Dialect) : Reader Substitution := do
  let unfinished := "unterminated \x60s' command"
  match ← next? with
  | none | some '\n' | some '\\' => refuse unfinished
  | some delimiter =>
    let text ← takeDelimited delimiter true unfinished
    let cs ← get
    -- What takes the place of a match may have line feeds in it after a backslash.
    let (new, rest) ← match delimited delimiter false (cs.length + 1) cs with
      | .ok (new, rest) => pure (new, rest)
      | .error rest =>
        set rest
        refuse unfinished
    set rest
    let pieces := pieces new
    let s ← substitutionFlags (rest.length + 2) false
      { expression := none, matching := {}, pieces }
    let found ← expression d text
    if let some (_, groups) := found then
      let used := pieces.filterMap fun p => match p with
        | .group n => some n
        | _ => none
      if let some n := used.find? (· > groups) then
        refuse s!"invalid reference \\{n} on \x60s' command's RHS"
    return { s with expression := found.map (·.1) }

/-- The characters that take the place of others. -/
def translation : Reader (List (Char × Char)) := do
  let unfinished := "unterminated \x60y' command"
  match ← next? with
  | none | some '\n' | some '\\' => refuse unfinished
  | some delimiter =>
    let first ← takeDelimited delimiter false unfinished
    let second ← takeDelimited delimiter false unfinished
    let (first, second) := (plain first, plain second)
    if first.length ≠ second.length then
      refuse "strings for \x60y' command are different lengths"
    commandEnd
    return first.zip second
where
  /-- Characters with their escapes replaced. -/
  plain : List Char → List Char
    | '\\' :: c :: rest => (control? c).getD c :: plain rest
    | c :: rest => c :: plain rest
    | [] => []

/-- What has been read of a script: its instructions, the blocks that are open, and the labels. -/
structure Draft where
  instructions : Array Instruction := #[]
  blocks : List Nat := []
  labels : List (String × Nat) := []

/-- The command of a letter that needs no other instructions. -/
def simpleCommand (d : Dialect) (s : Selection) (c : Char) : Reader Command := do
  let status : Reader (Option Nat) := do
    let c ← nextAfterBlanks?
    putBack c
    let ds ← takeWhile Char.isDigit
    commandEnd
    return if ds.isEmpty then none else some (number ds)
  let target : Reader (Option String) := do
    let name ← label
    return if name = "" then none else some name
  match c with
  | 'a' => return .append (← ownText)
  | 'i' => return .insert (← ownText)
  | 'c' => return .change (← ownText)
  | 'b' => return .branch (← target)
  | 't' => return .branchIf true (← target)
  | 'T' => return .branchIf false (← target)
  | 's' => return .substitute (← substitution d)
  | 'y' => return .translate (← translation)
  | 'r' => return .readFile (← fileName)
  | 'R' => return .readLine (← fileName)
  | 'w' => return .writeFile (← fileName)
  | 'W' => return .writeLine (← fileName)
  | 'q' | 'Q' =>
    if s.stop.isSome then refuse "command only uses one address"
    return .quit ((← status).getD 0) (c = 'Q')
  | 'l' => return .list (← status)
  | 'v' =>
    let _ ← label
    return .nothing
  | c =>
    if !(['=', 'd', 'D', 'F', 'g', 'G', 'h', 'H', 'n', 'N', 'p', 'P', 'x', 'z'].contains c) then
      refuse s!"unknown command: \x60{c}'"
    commandEnd
    return .letter c

/-- Reads instructions to the end. -/
def instructions (d : Dialect) : (fuel : Nat) → Draft → Reader Draft
  | 0, draft => return draft
  | fuel + 1, draft => do
    modify fun cs => cs.dropWhile fun c => c = ';' || c = ' ' || c = '\t' || c = '\n'
    if (← get).isEmpty then return draft
    let (s, c) ← selection d
    let add (command : Command) : Draft :=
      { draft with instructions := draft.instructions.push { selection := s, command } }
    match c with
    | none => refuse "missing command"
    | some '#' =>
      if s.start.isSome then refuse "comments don't accept any addresses"
      let _ ← takeWhile (· ≠ '\n')
      instructions d fuel draft
    | some '{' =>
      let here := draft.instructions.size
      instructions d fuel { add (.block 0) with blocks := here :: draft.blocks }
    | some '}' =>
      match draft.blocks with
      | [] => refuse "unexpected \x60\x7d'"
      | top :: blocks =>
        if s.start.isSome then refuse "\x7d doesn't want any addresses"
        commandEnd
        let stop := draft.instructions.size
        let closed := draft.instructions.modify top fun i => { i with command := .block stop }
        instructions d fuel { draft with instructions := closed, blocks }
    | some ':' =>
      if s.start.isSome then refuse ": doesn't want any addresses"
      let name ← label
      if name = "" then refuse "\":\" lacks a label"
      instructions d fuel
        { draft with labels := (name, draft.instructions.size) :: draft.labels }
    | some c =>
      let command ← simpleCommand d s c
      instructions d fuel (add command)

/-- The label that an instruction goes to, unless it is there. -/
def missingLabel? (draft : Draft) (i : Instruction) : Option String :=
  let check (l : Option String) : Option String :=
    l.filter fun name => !draft.labels.any (·.1 = name)
  match i.command with
  | .branch l => check l
  | .branchIf _ l => check l
  | _ => none

/-- The program that a text makes. -/
def read (d : Dialect) (text : List Char) : Except Fault Program := do
  let (draft, _) ← (instructions d (text.length + 1) {}).run text
  if !draft.blocks.isEmpty then throw (.anywhere "unmatched \x60\x7b'")
  match draft.instructions.toList.findSome? (missingLabel? draft) with
  | some name => throw (.noLabel name)
  | none => return { instructions := draft.instructions, labels := draft.labels }

end StorageLayout.Shell.Script
