import StorageLayout.Shell.Arithmetic
import StorageLayout.Utility.Basic

/-!
# Programs that Show Files

Whole files, parts of them, or how much there is in them.

## Main definitions

* `showFiles`: One file after another.
* `showStart`, `showEnd`: The first or the last lines or octets.
* `showReversed`, `mirrorLines`: Lines in reverse, or reversed themselves.
* `countFiles`: Lines, words and octets.
* `numberLines`: Lines with their numbers.
* `copyInput`: The input, to several files.
-/

namespace StorageLayout.Shell.Utility

/-! ## One file after another -/

/-- How files are shown. -/
structure Manner where
  numbered : Bool := false
  /-- Whether only lines with something in them are numbered. -/
  sparse : Bool := false
  squeezed : Bool := false
  ends : Bool := false
  tabs : Bool := false
  unseen : Bool := false

/-- Where one is in what has been shown. -/
structure Progress where
  number : Nat := 0
  atStart : Bool := true
  /-- How many empty lines were shown last. -/
  empty : Nat := 0
  shown : Array String := #[]

/-- An octet below 128 so that it can be seen. -/
def visibleLow (c : Char) : String :=
  if c.toNat < 32 then String.ofList ['^', Char.ofNat (c.toNat + 64)]
  else if c.toNat = 127 then "^?"
  else c.toString

/-- An octet in some manner. -/
def Manner.text (m : Manner) (c : Char) : String :=
  if c = '\t' then (if m.tabs then "^I" else "\t")
  else if !m.unseen then c.toString
  else if c.toNat < 128 then visibleLow c
  else "M-" ++ visibleLow (Char.ofNat (c.toNat - 128))

/-- The number of the next line, if it gets one. -/
def Manner.begin (m : Manner) (p : Progress) (isEmpty : Bool) : Progress :=
  if m.numbered && !(isEmpty && m.sparse) then
    { p with number := p.number + 1, shown := p.shown.push (padLeft 6 s!"{p.number + 1}" ++ "\t") }
  else p

/-- Shows an octet. -/
def Manner.step (m : Manner) (p : Progress) (c : Char) : Progress :=
  if c = '\n' then
    if p.atStart && m.squeezed && p.empty ≥ 1 then { p with empty := p.empty + 1 }
    else
      let q := if p.atStart then m.begin p true else p
      { q with
        atStart := true
        empty := if p.atStart then p.empty + 1 else 0
        shown := q.shown.push (if m.ends then "$\n" else "\n") }
  else
    let q := if p.atStart then m.begin p false else p
    { q with atStart := false, empty := 0, shown := q.shown.push (m.text c) }

/-- Shows a text. -/
def Manner.show (m : Manner) (p : Progress) (text : String) : Progress :=
  text.toList.foldl m.step p

/-- The place of the file that a stream of the process leads to. -/
def filePlace? (stream : Nat) : Step (Option FileTree.Trail) := do
  match ← stream? stream with
  | some (_, { channel := .file place, .. }) => return some place
  | _ => return none

/-- Whether what is read is what is written. -/
def isOwnOutput (name : String) : Step Bool := do
  let w ← theWorld
  let source ← if name = "-" then filePlace? 0 else pure (w.walk (← here) name true).toOption
  let target ← filePlace? 1
  return source.isSome && source = target && w.content (source.getD []) ≠ ""

/-- Shows one file after another. -/
def showFiles : Utility := fun _ arguments =>
  let table : OptionTable :=
    { program := "cat", letters := "AbeEnstTuv"
      long := [("show-all", 'A'), ("number-nonblank", 'b'), ("show-ends", 'E'), ("number", 'n'),
        ("squeeze-blank", 's'), ("show-tabs", 'T'), ("show-nonprinting", 'v')] }
  table.read arguments fun given => do
    let anyOf (cs : List Char) : Bool := cs.any given.has
    let manner : Manner :=
      { numbered := anyOf ['n', 'b'], sparse := given.has 'b', squeezed := given.has 's'
        ends := anyOf ['A', 'e', 'E'], tabs := anyOf ['A', 't', 'T']
        unseen := anyOf ['A', 'e', 't', 'v'] }
    let isPlain := !anyOf ['A', 'b', 'e', 'E', 'n', 's', 't', 'T', 'v']
    if (← stream? 1).isNone then
      complain s!"cat: standard output: {Trouble.badStream.text}\n"
      return 1
    let names := if given.operands.isEmpty then ["-"] else given.operands
    let (_, failed) ← names.foldlM (fun (progress, failed) name => do
      if ← isOwnOutput name then
        complain s!"cat: {quotedIfNeeded name}: input file is output file\n"
        return (progress, true)
      match ← readOperand name with
      | .error e =>
        tell "cat" (quotedIfNeeded name) e
        return (progress, true)
      | .ok text =>
        if isPlain then
          say text
          return (progress, failed)
        let progress := manner.show { progress with shown := #[] } text
        say (String.join progress.shown.toList)
        return (progress, failed)) (({} : Progress), false)
    return if failed then 1 else 0

/-! ## Parts of files -/

/-- The number that a text is, with a letter for a multiple. -/
def amount? (s : String) : Option Nat :=
  let cs := s.toList
  let digits := cs.takeWhile Char.isDigit
  if digits.isEmpty then none
  else
    let n := (String.ofList digits).toNat?.getD 0
    let powers : List (Char × Nat) :=
      [('k', 1), ('K', 1), ('m', 2), ('M', 2), ('G', 3), ('T', 4), ('P', 5), ('E', 6)]
    match cs.dropWhile Char.isDigit with
    | [] => some n
    | ['b'] => some (n * 512)
    | c :: rest =>
      match powers.find? (·.1 = c), rest with
      | some (_, p), [] | some (_, p), ['i', 'B'] => some (n * Nat.pow 1024 p)
      | some (_, p), ['B'] => some (n * Nat.pow 1000 p)
      | _, _ => none

/-- How much of a file is meant. -/
structure Portion where
  count : Nat := 10
  /-- Whether octets are counted, not lines. -/
  octets : Bool := false
  /-- The sign before the count. -/
  sign : Option Char := none

/-- The portion that a word stands for. -/
def Portion.ofWord? (octets : Bool) (word : String) : Option Portion :=
  match word.toList with
  | '+' :: cs => (amount? (String.ofList cs)).map ({ count := ·, octets, sign := some '+' })
  | '-' :: cs => (amount? (String.ofList cs)).map ({ count := ·, octets, sign := some '-' })
  | _ => (amount? word).map ({ count := ·, octets })

/-- How many characters the first lines of a text take. -/
def lengthOfLines : (lines : Nat) → List Char → Nat
  | 0, _ => 0
  | _, [] => 0
  | n + 1, c :: cs =>
    if c = '\n' then
      match n with
      | 0 => 1
      | n + 1 => 1 + lengthOfLines (n + 1) cs
    else 1 + lengthOfLines (n + 1) cs

/-- How many lines there are in a text, a last one without an end among them. -/
def lineCount (text : String) : Nat := (linesOf text).length

/-- How many characters the start of a text takes. A minus sign leaves out as much at the end. -/
def Portion.startLength (p : Portion) (text : String) : Nat :=
  let cs := text.toList
  let leavesOut := p.sign = some '-'
  if p.octets then (if leavesOut then text.length - p.count else min p.count text.length)
  else lengthOfLines (if leavesOut then lineCount text - p.count else p.count) cs

/-- How many characters come before the end of a text. A plus sign counts from the start. -/
def Portion.endStart (p : Portion) (text : String) : Nat :=
  let cs := text.toList
  let fromStart := p.sign = some '+'
  if p.octets then (if fromStart then p.count - 1 else text.length - p.count)
  else lengthOfLines (if fromStart then p.count - 1 else lineCount text - p.count) cs

/-- Puts what is left of the input back, if it is a file. -/
def giveBack (count : Nat) : Step Unit := do
  if (← filePlace? 0).isSome then unread 0 count

/-- Shows parts of files, under headings if there are several. -/
def showParts (program : String) (headed : Bool) (names : List String)
    (part : String → Nat × Nat) : Step Nat := do
  let (_, failed) ← names.foldlM (fun (first, failed) name => do
    let shown := if name = "-" then "standard input" else name
    let heading : Step Unit := do
      if headed then say ((if first then "" else "\n") ++ s!"==> {shown} <==\n")
    match ← readOperand name with
    | .error .folder =>
      heading
      tell program s!"error reading {alwaysQuoted shown}" .folder
      return (false, true)
    | .error e =>
      tell program s!"cannot open {alwaysQuoted shown} for reading" e
      return (first, true)
    | .ok text =>
      heading
      let (start, stop) := part text
      say (String.ofList ((text.toList.take stop).drop start))
      if name = "-" then giveBack (text.length - stop)
      return (false, failed)) (true, false)
  return if failed then 1 else 0

/-- The arguments with a first one that is a number alone made into an option for lines. -/
def withoutOldForm (signs : List Char) (arguments : List String) : List String :=
  match arguments with
  | word :: rest =>
    match word.toList with
    | sign :: c :: cs =>
      let digits := (c :: cs).takeWhile Char.isDigit
      let after := (c :: cs).dropWhile Char.isDigit
      let number := String.ofList (if sign = '+' then sign :: digits else digits)
      if signs.contains sign && c.isDigit then
        match after with
        | [] => "-n" :: number :: rest
        | ['c'] => "-c" :: number :: rest
        | ['l'] => "-n" :: number :: rest
        | _ => arguments
      else arguments
    | _ => arguments
  | [] => []

/-- Shows parts of files as the options of a program ask for. -/
def partsProgram (table : OptionTable) (signs : List Char)
    (part : Portion → String → Nat × Nat) : Utility := fun _ arguments =>
  table.read (withoutOldForm signs arguments) fun given => do
    let names := if given.operands.isEmpty then ["-"] else given.operands
    let letter := (given.last? ['n', 'c']).getD 'n'
    let word := (given.text? letter).getD "10"
    match Portion.ofWord? (letter = 'c') word with
    | none =>
      let what := if letter = 'c' then "bytes" else "lines"
      let shown := String.ofList (word.toList.dropWhile fun c => c = '-')
      complain s!"{table.program}: invalid number of {what}: {curlyQuoted shown}\n"
      return 1
    | some portion =>
      let headed := match given.last? ['q', 'v'] with
        | some 'q' => false
        | some _ => true
        | none => names.length > 1
      showParts table.program headed names (part portion)

/-- Shows the start of files. -/
def showStart : Utility :=
  partsProgram
    { program := "head", letters := "c:n:qvz"
      long := [("bytes", 'c'), ("lines", 'n'), ("quiet", 'q'), ("silent", 'q'), ("verbose", 'v')] }
    ['-'] fun p text => (0, p.startLength text)

/-- Shows the end of files. -/
def showEnd : Utility := fun run arguments => do
  let isOld := withoutOldForm ['-', '+'] arguments ≠ arguments
  if isOld && arguments.length > 2 then
    let digits := (arguments.headD "").toList.tail.takeWhile Char.isDigit
    complain s!"tail: option used in invalid context -- {String.ofList digits}\n"
    return 1
  partsProgram
    { program := "tail", letters := "c:n:qvfFs:z"
      long := [("bytes", 'c'), ("lines", 'n'), ("quiet", 'q'), ("silent", 'q'), ("verbose", 'v')] }
    ['-', '+'] (fun p text => (p.endStart text, text.length)) run arguments

/-- Does something with the text of every file that is named, or of the input. -/
def forTexts (program : String) (names : List String) (act : String → Step Unit) : Step Nat :=
  forOperands (if names.isEmpty then ["-"] else names) fun name => do
    match ← readOperand name with
    | .error e =>
      tell program (quotedIfNeeded name) e
      return false
    | .ok text =>
      act text
      return true

/-- The lines of a text, each with its end if it has one. -/
def wholeLines (text : String) : List String :=
  let pieces := text.splitOn "\n"
  (pieces.dropLast.map (· ++ "\n")) ++ (pieces.getLast?.toList.filter (· ≠ ""))

/-- Shows the lines of files from the last to the first. -/
def showReversed : Utility := fun _ arguments =>
  let table : OptionTable := { program := "tac", letters := "brs:" }
  table.read arguments fun given =>
    forOperands (if given.operands.isEmpty then ["-"] else given.operands) fun name => do
      match ← readOperand name with
      | .error e =>
        let what := if e = .folder then s!"{quotedIfNeeded name}: read error"
          else s!"failed to open {alwaysQuoted name} for reading"
        tell "tac" what e
        return false
      | .ok text =>
        say (String.join (wholeLines text).reverse)
        return true

/-- Shows every line of files from its end to its start. -/
def mirrorLines : Utility := fun _ arguments =>
  let table : OptionTable := { program := "rev", letters := "" }
  table.read arguments fun given =>
    forOperands (if given.operands.isEmpty then ["-"] else given.operands) fun name => do
      match ← readOperand name with
      | .error e =>
        tell "rev" (if e = .folder then name else s!"cannot open {name}") e
        return false
      | .ok text =>
        let mirror (line : String) : String := octets (String.ofList (ofOctets line).toList.reverse)
        let ended := text.toList.getLast? = some '\n'
        say ("\n".intercalate ((linesOf text).map mirror) ++ (if ended then "\n" else ""))
        return true

/-! ## Counting -/

/-- How much there is in a text: lines, words, characters, octets, and the longest line. -/
structure Counts where
  lines : Nat := 0
  words : Nat := 0
  characters : Nat := 0
  octets : Nat := 0
  longest : Nat := 0

/-- The words of a text. -/
def wordCount (text : String) : Nat :=
  (text.toList.foldl (fun (n, inside) c =>
    if isBlankByte c then (n, false) else (if inside then n else n + 1, true)) (0, false)).1

/-- What there is in a text. -/
def Counts.ofText (text : String) : Counts where
  lines := text.toList.count '\n'
  words := wordCount text
  characters := (ofOctets text).length
  octets := text.length
  longest := ((linesOf text).map fun line => (ofOctets line).length).foldl max 0

/-- What there is in two texts together. -/
def Counts.add (a b : Counts) : Counts where
  lines := a.lines + b.lines
  words := a.words + b.words
  characters := a.characters + b.characters
  octets := a.octets + b.octets
  longest := max a.longest b.longest

/-- The counts that letters ask for, in the order in which they are written. -/
def Counts.chosen (c : Counts) (letters : List Char) : List Nat :=
  [('l', c.lines), ('w', c.words), ('m', c.characters), ('c', c.octets), ('L', c.longest)].filterMap
    fun (letter, n) => if letters.contains letter then some n else none

/-- A line with counts. -/
def countLine (width : Nat) (counts : List Nat) (name : Option String) : String :=
  let columns := counts.map fun n => padLeft width (toString n)
  " ".intercalate (columns ++ name.toList) ++ "\n"

/-- How wide counts are written: as wide as the number of all octets, and wider if some of the files
are no files with a known length. -/
def countWidth (names : List String) (single : Bool) : Step Nat := do
  if names.length ≤ 1 && single then return 1
  let w ← theWorld
  let folder ← here
  let sizes ← names.mapM fun name => do
    if name = "-" then
      return some ((← filePlace? 0).map fun t => (w.content t).length)
    else
      match w.walk folder name true with
      | .ok t => return some (if w.kind? t = some .file then some (w.content t).length else none)
      | .error _ => return none
  let known := sizes.filterMap id
  let total := (known.filterMap id).foldl (· + ·) 0
  let least := if known.any Option.isNone then 7 else 1
  return max least (toString total).length

/-- Counts lines, words and octets. -/
def countFiles : Utility := fun _ arguments =>
  let table : OptionTable :=
    { program := "wc", letters := "clmLw"
      long := [("bytes", 'c'), ("chars", 'm'), ("lines", 'l'), ("words", 'w'),
        ("max-line-length", 'L')] }
  table.read arguments fun given => do
    let asked := given.options.map (·.1)
    let letters := if asked.isEmpty then ['l', 'w', 'c'] else asked
    let names := if given.operands.isEmpty then ["-"] else given.operands
    let width ← countWidth names (letters.eraseDups.length = 1)
    let (total, failed) ← names.foldlM (fun (total, failed) name => do
      let shown := if given.operands.isEmpty then none else some (quotedIfNeeded name)
      match ← readOperand name with
      | .error e =>
        tell "wc" (quotedIfNeeded name) e
        if e = .folder then say (countLine width (Counts.chosen {} letters) shown)
        return (total, true)
      | .ok text =>
        let counts := Counts.ofText text
        say (countLine width (counts.chosen letters) shown)
        return (total.add counts, failed)) (({} : Counts), false)
    if names.length > 1 then say (countLine width (total.chosen letters) (some "total"))
    return if failed then 1 else 0

/-! ## Numbering -/

/-- Shows lines with their numbers. -/
def numberLines : Utility := fun _ arguments =>
  let table : OptionTable :=
    { program := "nl", letters := "b:d:f:h:i:l:n:ps:v:w:"
      long := [("body-numbering", 'b'), ("number-separator", 's'), ("number-width", 'w'),
        ("starting-line-number", 'v'), ("line-increment", 'i'), ("number-format", 'n')] }
  table.read arguments fun given => do
    let style := (given.text? 'b').getD "t"
    let separator := (given.text? 's').getD "\t"
    let natural (c : Char) (usual : Nat) : Nat := ((given.text? c).bind natural?).getD usual
    let width := natural 'w' 6
    let step := natural 'i' 1
    let form := (given.text? 'n').getD "rn"
    let write (n : Nat) : String :=
      let digits := toString n
      if form = "ln" then padRight width digits
      else if form = "rz" then
        String.ofList (List.replicate (width - digits.length) '0') ++ digits
      else padLeft width digits
    let names := if given.operands.isEmpty then ["-"] else given.operands
    let (_, failed) ← names.foldlM (fun (number, failed) name => do
      match ← readOperand name with
      | .error e =>
        tell "nl" (quotedIfNeeded name) e
        return (number, true)
      | .ok text =>
        let number ← (linesOf text).foldlM (fun number line => do
          if style = "a" || (style = "t" && line ≠ "") then
            say (write number ++ separator ++ line ++ "\n")
            return number + step
          else
            say (padLeft (width + separator.length) "" ++ line ++ "\n")
            return number) number
        return (number, failed)) (natural 'v' 1, false)
    return if failed then 1 else 0

/-! ## Copying the input -/

/-- Writes the input to the output and to files. -/
def copyInput : Utility := fun _ arguments =>
  let table : OptionTable :=
    { program := "tee", letters := "aip", long := [("append", 'a'), ("ignore-interrupts", 'i')] }
  table.read arguments fun given => do
    let opening := if given.has 'a' then Opening.append else .overwrite
    let opened ← given.operands.mapM fun name => do
      match ← openPath name opening with
      | .ok index => return some index
      | .error e =>
        tell "tee" (quotedIfNeeded name) e
        return none
    match ← readAll 0 with
    | .error e =>
      tell "tee" "read error" e
      return 1
    | .ok text =>
      say text
      (opened.filterMap id).forM fun index => keepingStreams do
        bindStream 1 index
        say text
      return if opened.all Option.isSome then 0 else 1

end StorageLayout.Shell.Utility
