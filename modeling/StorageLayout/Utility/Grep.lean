import StorageLayout.Utility.Finding
import StorageLayout.Utility.Reading
import StorageLayout.Utility.Regex

/-!
# Lines that Match

The lines of files that an expression matches, or does not match.

## Main definitions

* `LineTest`: Which lines are looked for.
* `Report`: What is written of them.
* `Report.lines`: The lines to be written for a text.
* `matchLines`: The program.
-/

namespace StorageLayout.Shell.Utility

/-! ## Which lines -/

/-- Which lines are looked for. -/
structure LineTest where
  expressions : List Regex
  matching : Regex.Matching
  inverted : Bool := false

namespace LineTest

/-- A character as an expression, or as nothing but itself. -/
def literal (cs : List Char) : Regex := cs.foldr (fun c r => .seq (.char c) r) .empty

/-- The expressions that options and patterns make. Patterns stand on lines of their own. -/
def read (extended fixed wholeWord wholeLine : Bool) (patterns : List String) :
    Except String (List Regex) :=
  patterns.mapM fun pattern => do
    let cs := (ofOctets pattern).toList
    let r ← if fixed then pure (literal cs) else (·.1) <$> Regex.read { extended } cs
    if wholeLine then return .seq .lineStart (.seq r .lineEnd)
    else if wholeWord then return .seq .clearBefore (.seq r .clearAfter)
    else return r

/-- The first match in a line from some place on: the longest of those that start first. -/
def find (t : LineTest) (s : Regex.Spot) : Option Regex.Match :=
  t.expressions.foldl (fun best r =>
    match best, r.find t.matching s with
    | none, found => found
    | best, none => best
    | some a, some b =>
      if b.start.position < a.start.position
        || (b.start.position = a.start.position && b.stop.position > a.stop.position)
      then some b else some a) none

/-- Whether a line is one of those looked for. -/
def accepts (t : LineTest) (line : List Char) : Bool :=
  (t.find { rest := line }).isSome != t.inverted

/-- The parts of a line that match, with their positions. -/
def parts (t : LineTest) : (fuel : Nat) → Regex.Spot → List (Nat × List Char)
  | 0, _ => []
  | fuel + 1, s =>
    match t.find s with
    | none => []
    | some found =>
      if found.text.isEmpty then
        match found.stop.rest with
        | c :: rest => parts t fuel ({ found.stop with groups := [] }.next c rest)
        | [] => []
      else (found.start.position, found.text) :: parts t fuel { found.stop with groups := [] }

end LineTest

/-- What is wrong with backslashes in a pattern: those before characters that need none. -/
def strayBackslashes (extended : Bool) : List Char → List Char
  | '\\' :: c :: rest =>
    let known := "\\^$123456789\x60'<>bB?*+\x7b|\n().sSwW[]\x7d".toList
    let others := strayBackslashes extended rest
    if known.contains c then others else c :: others
  | '[' :: rest => strayBackslashes extended rest
  | _ :: rest => strayBackslashes extended rest
  | [] => []

/-! ## What is written -/

/-- What is written of the lines. -/
structure Report where
  test : LineTest
  count : Bool := false
  /-- Whether the names of files with such lines, or of those without, are written. -/
  names : Option Bool := none
  numbered : Bool := false
  offsets : Bool := false
  partsOnly : Bool := false
  quiet : Bool := false
  named : Bool := false
  most : Option Nat := none
  before : Nat := 0
  after : Nat := 0

namespace Report

/-- A line with its number, where it starts, and whether it is one of those looked for. -/
structure Line where
  number : Nat
  offset : Nat
  text : String
  chosen : Bool

/-- The lines of a text; no more are looked for once there are enough. -/
def linesFrom (r : Report) : (number offset found : Nat) → List String → List Line
  | _, _, _, [] => []
  | n, offset, found, text :: rest =>
    let isOver := r.most.any (found ≥ ·)
    let chosen := !isOver && r.test.accepts (ofOctets text).toList
    { number := n, offset, text, chosen }
      :: linesFrom r (n + 1) (offset + text.length + 1) (if chosen then found + 1 else found) rest

/-- What stands before a line: the name of its file, its number, and where it starts. -/
def heading (r : Report) (name mark : String) (number offset : Nat) : String :=
  (if r.named then name ++ mark else "") ++ (if r.numbered then s!"{number}{mark}" else "")
    ++ (if r.offsets then s!"{offset}{mark}" else "")

/-- Whether a line is written: it is chosen, or near one that is. -/
def isShown (r : Report) (chosen : List Nat) (number : Nat) : Bool :=
  chosen.any fun n => n ≤ number + r.before && number ≤ n + r.after

/-- The lines that are written for the lines of a file. `last` is the number of the line written
before. -/
def body (r : Report) (name : String) (chosen : List Nat) :
    (last : Option Nat) → List Line → List String
  | _, [] => []
  | last, line :: rest =>
    if !r.isShown chosen line.number then body r name chosen last rest
    else
      let separated := r.before + r.after > 0 && last.any (· + 1 < line.number)
      let texts :=
        if !line.chosen then
          if r.partsOnly then []
          else [r.heading name "-" line.number line.offset ++ line.text]
        else if r.partsOnly then
          let cs := (ofOctets line.text).toList
          (r.test.parts (cs.length + 1) { rest := cs }).map fun (start, part) =>
            let offset := line.offset + (octets (String.ofList (cs.take start))).length
            r.heading name ":" line.number offset ++ octets (String.ofList part)
        else [r.heading name ":" line.number line.offset ++ line.text]
      (if separated then ["--"] else []) ++ texts ++ body r name chosen (some line.number) rest

/-- Whether a text is none that can be shown. -/
def isBinary (text : String) : Bool :=
  text.toList.contains '\x00' || (String.fromUTF8? ⟨(bytesOfOctets text).toArray⟩).isNone

/-- Writes what there is to write for a text, and says whether a line was chosen. -/
def write (r : Report) (asText : Bool) (name text : String) : Step Bool := do
  let lines := r.linesFrom 1 0 0 (linesOf text)
  let chosen := (lines.filter (·.chosen)).map (·.number)
  let found := !chosen.isEmpty
  if r.quiet then return found
  match r.names with
  | some wanted =>
    if found = wanted then say (name ++ "\n")
    return found
  | none =>
    let heading := if r.named then name ++ ":" else ""
    if r.count then say s!"{heading}{chosen.length}\n"
    else if found && !asText && isBinary text then
      complain s!"grep: {name}: binary file matches\n"
    else say (unlines (r.body name chosen none lines))
    return found

end Report

/-! ## The program -/

/-- The options of the program. -/
def matchOptions : OptionTable where
  program := "grep"
  letters := "0123456789A:abB:C:cD:d:EFe:f:GHhiILlm:noPqRrsTUuvVwxyzS::K:J:X:"
  long := [("extended-regexp", 'E'), ("fixed-strings", 'F'), ("basic-regexp", 'G'),
    ("regexp", 'e'), ("file", 'f'), ("ignore-case", 'i'), ("word-regexp", 'w'),
    ("line-regexp", 'x'), ("no-messages", 's'), ("invert-match", 'v'), ("max-count", 'm'),
    ("byte-offset", 'b'), ("line-number", 'n'), ("with-filename", 'H'), ("no-filename", 'h'),
    ("only-matching", 'o'), ("quiet", 'q'), ("silent", 'q'), ("text", 'a'), ("recursive", 'r'),
    ("files-without-match", 'L'), ("files-with-matches", 'l'), ("count", 'c'),
    ("before-context", 'B'), ("after-context", 'A'), ("context", 'C'), ("color", 'S'),
    ("colour", 'S'), ("include", 'K'), ("exclude", 'J'), ("exclude-dir", 'X')]
  misuse := 2

/-- How the program is used. -/
def matchUsage : String := "Usage: grep [OPTION]... PATTERNS [FILE]...\n"

/-- The files below a folder, at most `fuel` folders deep. `enters` says which folders are entered,
and `accepts` which files are taken. -/
def filesBelow (w : World) (enters accepts : String → Bool) :
    (fuel : Nat) → Entry → List String
  | 0, _ => []
  | fuel + 1, (path, t) =>
    (w.names t).flatMap fun name =>
      let place := ofOctets name :: t
      let inner := if path = "" then name else below path name
      match w.kind? place with
      | some .folder => if enters name then filesBelow w enters accepts fuel (inner, place) else []
      | some .file => if accepts name then [inner] else []
      | _ => []

/-- How many lines are shown around those that match: before them, and after. -/
def contextOf (given : GivenOptions) : Nat × Nat :=
  let number (c : Char) : Option Nat := (given.text? c).bind natural?
  let digits := (given.options.map (·.1)).filter Char.isDigit
  let both := (number 'C').orElse fun _ => natural? (String.ofList digits)
  (((number 'B').orElse fun _ => both).getD 0, ((number 'A').orElse fun _ => both).getD 0)

/-- The patterns that options give, or the first operand, with the other operands. -/
def patternsOf (given : GivenOptions) : Step (Except String (List String × List String)) := do
  let explicit := given.options.filter fun o => o.1 = 'e' || o.1 = 'f'
  let linesOfOption (o : Char × String) : Step (Except String (List String)) := do
    if o.1 = 'e' then return .ok (o.2.splitOn "\n")
    match ← readOperand o.2 with
    | .ok content => return .ok (linesOf content)
    | .error e => return .error s!"{o.2}: {e.text}"
  let pieces ← explicit.mapM linesOfOption
  match explicit, given.operands with
  | [], [] => return .error ""
  | [], pattern :: files => return .ok (pattern.splitOn "\n", files)
  | _, files =>
    let all : Except String (List (List String)) := pieces.mapM id
    return all.map fun ps => (ps.flatten, files)

/-- Writes the lines of files that match. -/
def matchLines (extended fixed : Bool) : Utility := fun _ arguments => do
  match matchOptions.readFrom (arguments.length + 1) arguments with
  | .error reason =>
    complain s!"grep: {reason}\n"
    usage
  | .ok given =>
    let failed (reason : String) : Step Nat := do
      complain s!"grep: {reason}\n"
      return 2
    match ← patternsOf given with
    | .error "" => usage
    | .error reason => failed reason
    | .ok (patterns, files) =>
      let kind := given.last? ['E', 'F', 'G', 'P']
      let extended : Bool := (kind.map fun c => c = 'E' || c = 'P').getD extended
      let fixed : Bool := (kind.map fun c => c == 'F').getD fixed
      match LineTest.read extended fixed (given.has 'w') (given.has 'x') patterns with
      | .error reason => failed reason
      | .ok expressions =>
        if !fixed then
          (patterns.flatMap fun p => strayBackslashes extended p.toList).forM fun c =>
            complain s!"grep: warning: stray \\ before {c}\n"
        let recursive := given.has 'r' || given.has 'R'
        let context := contextOf given
        let named := match given.last? ['H', 'h'] with
          | some c => c = 'H'
          | none => files.length > 1
        let report : Report :=
          { test := { expressions, matching := { ignoreCase := given.has 'i' || given.has 'y' }
                      inverted := given.has 'v' }
            count := given.has 'c', names := (given.last? ['l', 'L']).map (· = 'l')
            numbered := given.has 'n', offsets := given.has 'b'
            partsOnly := given.has 'o', quiet := given.has 'q', named
            most := (given.text? 'm').bind natural?
            before := context.1, after := context.2 }
        search given report recursive files
where
  /-- Says how the program is used. -/
  usage : Step Nat := do
    complain (matchUsage ++ "Try 'grep --help' for more information.\n")
    return 2
  /-- Goes through files. -/
  search (given : GivenOptions) (report : Report) (recursive : Bool) (files : List String) :
      Step Nat := do
    let w ← theWorld
    let here ← here
    let patterns (letter : Char) : List Pattern :=
      (given.options.filter (·.1 = letter)).map fun o => Search.patternOf false o.2
    let listed (letter : Char) (name : String) : Bool :=
      (patterns letter).any (·.accepts (ofOctets name).toList)
    let accepts (name : String) : Bool :=
      ((patterns 'K').isEmpty || listed 'K' name) && !listed 'J' name
    let enters (name : String) : Bool := !listed 'X' name
    let inFolder (path : String) (top : FileTree.Trail) : List (String × Bool) :=
      (filesBelow w enters accepts 256 (path, top)).map (·, true)
    let targets : List (String × Bool) :=
      if files.isEmpty then (if recursive then inFolder "" here else [("-", false)])
      else files.flatMap fun file =>
        match recursive, w.walk here file true with
        | true, .ok t =>
          if w.kind? t = some .folder then inFolder file t
          else if accepts (baseName file) then [(file, false)] else []
        | _, _ => [(file, false)]
    let asText := given.has 'a'
    let hidden := given.last? ['H', 'h'] = some 'h'
    let results ← targets.mapM fun (file, inner) => do
      match ← readOperand file with
      | .error e =>
        if !given.has 's' then tell "grep" file e
        return (false, true)
      | .ok text =>
        let shown := if file = "-" then "(standard input)" else file
        let report := { report with named := report.named || (inner && !hidden) }
        return (← report.write asText shown text, false)
    let found := results.any (·.1)
    let failed := results.any (·.2)
    if found && report.quiet then return 0
    return if failed then 2 else if found then 0 else 1

end StorageLayout.Shell.Utility
