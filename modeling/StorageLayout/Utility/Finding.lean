import StorageLayout.Shell.Pattern
import StorageLayout.Utility.Listing

/-!
# Finding Files

Files that conditions hold of, and what is done with them.

What is asked for is an expression. It is evaluated for every file below the starting points; some
conditions are met by doing something, such as writing the path or running a command.

## Main definitions

* `Search`: An expression.
* `Search.read`: The expression that words make.
* `Search.holds`: Evaluates an expression for a file.
* `findFiles`: Goes through all files.
-/

namespace StorageLayout.Shell.Utility

open FileTree (Trail)

/-- How a number is compared. -/
inductive Bound where
  | exactly (n : Nat)
  | above (n : Nat)
  | under (n : Nat)
deriving Repr, DecidableEq

/-- Whether a number is within a bound. -/
def Bound.accepts (n : Nat) : Bound → Bool
  | .exactly m => n = m
  | .above m => n > m
  | .under m => n < m

/-- The bound that a word stands for. -/
def Bound.ofWord? (word : String) : Option Bound :=
  match word.toList with
  | '+' :: cs => (natural? (String.ofList cs)).map .above
  | '-' :: cs => (natural? (String.ofList cs)).map .under
  | _ => (natural? word).map .exactly

/-- What is asked of a file. -/
inductive Search where
  | name (pattern : Pattern) (ignoreCase : Bool)
  | path (pattern : Pattern) (ignoreCase : Bool)
  | kinds (letters : List Char)
  | empty
  | size (bound : Bound) (unit : Nat)
  | mode (sign : Option Char) (bits : Nat)
  /-- Whether a file is newer than another one; none is. -/
  | newer
  | executable
  | constant (answer : Bool)
  | write (ending : String)
  | format (text : String)
  | delete
  | prune
  | stop
  /-- Runs a command for each file. -/
  | run (words : List String)
  /-- Runs a command for many files at once; the number tells such commands apart. -/
  | runAll (number : Nat) (words : List String)
  | not (a : Search)
  | and (a b : Search)
  | or (a b : Search)
  | andThen (a b : Search)

namespace Search

/-- Options for the whole of a search. -/
structure Limits where
  least : Nat := 0
  most : Option Nat := none
  /-- Whether what is in a folder comes before it. -/
  inside : Bool := false

/-- What is being read: how many commands there were, and the options. -/
structure Reading where
  commands : Nat := 0
  limits : Limits := {}
  /-- Whether something is done, so that nothing need be done for every file found. -/
  acts : Bool := false

/-- A step of reading. -/
abbrev Reader := StateT Reading (Except String)

/-- The pattern that a word is. -/
def patternOf (ignoreCase : Bool) (word : String) : Pattern :=
  let cs := (ofOctets word).toList
  Pattern.ofMarked ((if ignoreCase then cs.map Char.toLower else cs).map (·, false))

/-- The words of a command, and what follows them. The end is a semicolon, or a plus sign after a
place for files. -/
def commandWords : List String → Option (List String × Bool × List String)
  | [] => none
  | ";" :: rest => some ([], false, rest)
  | "{}" :: "+" :: rest => some (["{}"], true, rest)
  | word :: rest =>
    (commandWords rest).map fun (words, together, rest) => (word :: words, together, rest)

/-- The size in words, with the number of octets in its unit. -/
def sizeOf? (word : String) : Option (Bound × Nat) :=
  let units : List (Char × Nat) :=
    [('c', 1), ('w', 2), ('b', 512), ('k', 1024), ('M', 1048576), ('G', 1073741824)]
  match word.toList.getLast?.bind fun c => units.find? (·.1 = c) with
  | some (_, unit) =>
    (Bound.ofWord? (String.ofList word.toList.dropLast)).map (·, unit)
  | none => (Bound.ofWord? word).map (·, 512)

/-- The condition that words begin with, and what follows it. -/
def condition (word : String) (rest : List String) : Reader (Search × List String) := do
  let withArgument (f : String → Reader Search) : Reader (Search × List String) :=
    match rest with
    | argument :: rest => do return (← f argument, rest)
    | [] => throw s!"missing argument to \x60{word}'"
  let act (s : Search) : Reader (Search × List String) := do
    modify fun r => { r with acts := true }
    return (s, rest)
  let number (argument : String) : Reader Nat :=
    match natural? argument with
    | some n => return n
    | none => throw (s!"Expected a positive decimal integer argument to {word}, but got "
        ++ curlyQuoted argument)
  match word with
  | "-name" => withArgument fun a => return .name (patternOf false a) false
  | "-iname" => withArgument fun a => return .name (patternOf true a) true
  | "-path" | "-wholename" => withArgument fun a => return .path (patternOf false a) false
  | "-ipath" => withArgument fun a => return .path (patternOf true a) true
  | "-type" => withArgument fun a => do
    let letters := a.toList.filter (· ≠ ',')
    match letters.find? fun c => !(['f', 'd', 'l', 'b', 'c', 'p', 's'].contains c) with
    | some c => throw s!"Unknown argument to -type: {c}"
    | none => return .kinds letters
  | "-empty" => return (.empty, rest)
  | "-size" => withArgument fun a =>
    match sizeOf? a with
    | some (bound, unit) => return .size bound unit
    | none => throw s!"Invalid argument \x60{a}' to -size"
  | "-perm" => withArgument fun a => do
    let (sign, digits) := match a.toList with
      | '-' :: cs => (some '-', cs)
      | '/' :: cs => (some '/', cs)
      | cs => (none, cs)
    if !digits.isEmpty && digits.all fun c => '0' ≤ c && c ≤ '7' then
      return .mode sign (digits.foldl (fun n c => n * 8 + (c.toNat - 48)) 0)
    else throw s!"invalid mode {curlyQuoted a}"
  | "-newer" | "-cnewer" | "-anewer" | "-mtime" | "-mmin" | "-atime" | "-ctime" =>
    withArgument fun _ => return .newer
  | "-executable" => return (.executable, rest)
  | "-readable" | "-writable" | "-true" | "-follow" | "-xdev" | "-mount" | "-noleaf" =>
    return (.constant true, rest)
  | "-false" => return (.constant false, rest)
  | "-print" => act (.write "\n")
  | "-print0" => act (.write "\x00")
  | "-printf" =>
    modify fun r => { r with acts := true }
    withArgument fun a => return .format a
  | "-delete" =>
    modify fun r => { r with limits := { r.limits with inside := true } }
    act .delete
  | "-prune" => return (.prune, rest)
  | "-quit" => act .stop
  | "-depth" | "-d" =>
    modify fun r => { r with limits := { r.limits with inside := true } }
    return (.constant true, rest)
  | "-maxdepth" => withArgument fun a => do
    let n ← number a
    modify fun r => { r with limits := { r.limits with most := some n } }
    return .constant true
  | "-mindepth" => withArgument fun a => do
    let n ← number a
    modify fun r => { r with limits := { r.limits with least := n } }
    return .constant true
  | "-exec" | "-execdir" | "-ok" =>
    match commandWords rest with
    | none | some ([], _, _) => throw s!"missing argument to \x60{word}'"
    | some (words, together, rest) =>
      let n := (← get).commands
      modify fun r => { r with commands := n + 1, acts := true }
      if !together then return (.run words, rest)
      if words.count "{}" > 1 then
        throw s!"Only one instance of \x7b\x7d is supported with {word} ... +"
      return (.runAll n words.dropLast, rest)
  | _ =>
    if word.toList.head? = some '-' then throw s!"unknown predicate \x60{word}'"
    else throw s!"paths must precede expression: \x60{word}'"

mutual

/-- A condition, perhaps denied or in brackets. -/
def single : (fuel : Nat) → List String → Reader (Search × List String)
  | 0, _ => throw "expression is too long"
  | _, [] => throw "invalid expression"
  | fuel + 1, word :: rest => do
    match word with
    | "!" | "-not" =>
      if rest.isEmpty then throw s!"expected an expression after '{word}'"
      let (s, rest) ← single fuel rest
      return (.not s, rest)
    | "(" =>
      let missing :=
        "invalid expression; I was expecting to find a ')' somewhere but did not see one."
      if rest.isEmpty then throw missing
      if rest.head? = some ")" then throw "invalid expression; empty parentheses are not allowed."
      let (s, rest) ← sequence fuel rest
      match rest with
      | ")" :: rest => return (s, rest)
      | _ => throw missing
    | ")" => throw "you have too many ')'"
    | "-o" | "-or" | "-a" | "-and" | "," =>
      throw (s!"invalid expression; you have used a binary operator '{word}' with nothing "
        ++ "before it.")
    | _ => condition word rest

/-- Conditions that must all hold. -/
def conjunction : (fuel : Nat) → List String → Reader (Search × List String)
  | 0, _ => throw "expression is too long"
  | fuel + 1, words => do
    let (a, rest) ← single fuel words
    match rest with
    | [] | ")" :: _ | "-o" :: _ | "-or" :: _ | "," :: _ => return (a, rest)
    | "-a" :: rest | "-and" :: rest =>
      if rest.isEmpty then throw "expected an expression after '-a'"
      let (b, rest) ← conjunction fuel rest
      return (.and a b, rest)
    | rest =>
      let (b, rest) ← conjunction fuel rest
      return (.and a b, rest)

/-- Conditions of which one must hold. -/
def disjunction : (fuel : Nat) → List String → Reader (Search × List String)
  | 0, _ => throw "expression is too long"
  | fuel + 1, words => do
    let (a, rest) ← conjunction fuel words
    match rest with
    | "-o" :: rest | "-or" :: rest =>
      if rest.isEmpty then throw "expected an expression after '-o'"
      let (b, rest) ← disjunction fuel rest
      return (.or a b, rest)
    | rest => return (a, rest)

/-- Conditions that are evaluated one after another. -/
def sequence : (fuel : Nat) → List String → Reader (Search × List String)
  | 0, _ => throw "expression is too long"
  | fuel + 1, words => do
    let (a, rest) ← disjunction fuel words
    match rest with
    | "," :: rest =>
      let (b, rest) ← sequence fuel rest
      return (.andThen a b, rest)
    | rest => return (a, rest)

end

/-- The expression that words make, with its options. What is found is written unless something is
done with it. -/
def read (words : List String) : Except String (Search × Limits) := do
  if words.isEmpty then return (.write "\n", {})
  let ((s, rest), reading) ← (sequence (8 * words.length + 8) words).run {}
  match rest with
  | [] => return (if reading.acts then s else .and s (.write "\n"), reading.limits)
  | _ => throw "you have too many ')'"

/-- How far a search is. -/
structure State where
  /-- Whether the folder that is looked at is not entered. -/
  pruned : Bool := false
  stopped : Bool := false
  failed : Bool := false
  /-- The commands that are run for many files at once, with the files. -/
  pending : List (Nat × List String × List String) := []

/-- A step of a search. -/
abbrev Finder := StateT State Step

/-- A file that is looked at. -/
structure Candidate where
  path : String
  place : Trail
  depth : Nat
  /-- The starting point. -/
  start : String

/-- What a letter stands for where a file is described. -/
def detail (w : World) (c : Candidate) (letter : Char) : String :=
  match letter with
  | 'p' => c.path
  | 'f' => baseName c.path
  | 'h' => folderName c.path
  | 'P' => String.ofList ((c.path.toList.drop c.start.length).dropWhile (· = '/'))
  | 's' => toString (Utility.sizeOf w c.place)
  | 'd' => toString c.depth
  | 'm' => String.ofList (Nat.toDigits 8 (w.mode c.place))
  | 'M' => modeText w c.place
  | 'y' => (if kindLetter w c.place = '-' then 'f' else kindLetter w c.place).toString
  | 'l' => octets ((w.links.find? c.place).getD "")
  | '%' => "%"
  | c => "%" ++ c.toString

/-- A format with its letters replaced. -/
def fillDetails (w : World) (c : Candidate) : List Char → String
  | '%' :: l :: rest => detail w c l ++ fillDetails w c rest
  | '\\' :: 'n' :: rest => "\n" ++ fillDetails w c rest
  | '\\' :: 't' :: rest => "\t" ++ fillDetails w c rest
  | '\\' :: '0' :: rest => "\x00" ++ fillDetails w c rest
  | '\\' :: '\\' :: rest => "\\" ++ fillDetails w c rest
  | l :: rest => l.toString ++ fillDetails w c rest
  | [] => ""

/-- Runs a command, and says whether it succeeded. -/
def runCommand (run : Runner) (words : List String) : Finder Bool := do
  match ← run words with
  | .ok n => return n = 0
  | .error e =>
    tell "find" (curlyQuoted (words.headD "")) e
    return false

/-- Evaluates an expression for a file. -/
def holds (run : Runner) (c : Candidate) : Search → Finder Bool
  | .name p ignoreCase =>
    let name := (ofOctets (baseName c.path)).toList
    return p.accepts (if ignoreCase then name.map Char.toLower else name)
  | .path p ignoreCase =>
    let path := (ofOctets c.path).toList
    return p.accepts (if ignoreCase then path.map Char.toLower else path)
  | .kinds letters => do
    let letter := kindLetter (← theWorld) c.place
    return letters.contains (if letter = '-' then 'f' else letter)
  | .empty => do
    let w ← theWorld
    match w.kind? c.place with
    | some .folder => return (w.names c.place).isEmpty
    | some .file => return w.content c.place = ""
    | _ => return false
  | .size bound unit => do
    return bound.accepts ((Utility.sizeOf (← theWorld) c.place + unit - 1) / unit)
  | .mode sign bits => do
    let actual := (← theWorld).mode c.place
    match sign with
    | some '-' => return actual &&& bits = bits
    | some _ => return bits = 0 || actual &&& bits ≠ 0
    | none => return actual = bits
  | .newer => return false
  | .executable => do return (← theWorld).isExecutable c.place
  | .constant answer => return answer
  | .write ending => do
    say (c.path ++ ending)
    return true
  | .format text => do
    say (fillDetails (← theWorld) c text.toList)
    return true
  | .delete => do
    let w ← theWorld
    if w.kind? c.place = some .folder && !(w.names c.place).isEmpty then
      tell "find" s!"cannot delete {curlyQuoted c.path}" .notEmpty
      modify fun s => { s with failed := true }
      return false
    if c.path ≠ "." then changeWorld (·.remove c.place)
    return true
  | .prune => do
    modify fun s => { s with pruned := true }
    return true
  | .stop => do
    modify fun s => { s with stopped := true }
    return true
  | .run words => runCommand run (words.map fun w => c.path.intercalate (w.splitOn "{}"))
  | .runAll number words => do
    modify fun s =>
      let (mine, others) := s.pending.partition (·.1 = number)
      let files := (mine.head?.map fun p => p.2.2).getD []
      { s with pending := others ++ [(number, words, files ++ [c.path])] }
    return true
  | .not a => do return !(← holds run c a)
  | .and a b => do
    if ← holds run c a then holds run c b else return false
  | .or a b => do
    if ← holds run c a then return true else holds run c b
  | .andThen a b => do
    let _ ← holds run c a
    holds run c b

/-- Goes through a file and what is below it, at most `fuel` folders deep. -/
def visit (run : Runner) (search : Search) (limits : Limits) (c : Candidate) :
    (fuel : Nat) → Finder Unit
  | 0 => return
  | fuel + 1 => do
    if (← get).stopped then return
    let look : Finder Unit := do
      if limits.least ≤ c.depth then
        let _ ← search.holds run c
    modify fun s => { s with pruned := false }
    if !limits.inside then look
    let state ← get
    let w ← theWorld
    let deeper := match limits.most with
      | some n => c.depth < n
      | none => true
    if !state.stopped && !state.pruned && deeper && w.kind? c.place = some .folder then
      (w.names c.place).forM fun name =>
        let inner : Candidate :=
          { c with path := below c.path name, place := ofOctets name :: c.place,
                   depth := c.depth + 1 }
        visit run search limits inner fuel
    if limits.inside && !(← get).stopped then look

end Search

/-- Goes through all files below some paths. -/
def findFiles : Utility := fun run arguments => do
  let arguments := arguments.dropWhile fun a => a = "-L" || a = "-P" || a = "-H"
  let isPath (word : String) : Bool :=
    word ≠ "(" && word ≠ "!" && word ≠ ")" && word ≠ "," && word.toList.head? ≠ some '-'
  let paths := arguments.takeWhile isPath
  match Search.read (arguments.drop paths.length) with
  | .error reason =>
    complain s!"find: {reason}\n"
    return 1
  | .ok (search, limits) =>
    let go : Search.Finder Unit := do
      (if paths.isEmpty then ["."] else paths).forM fun path => do
        let w ← theWorld
        match w.walk (← here) path false with
        | .error e =>
          tell "find" (curlyQuoted path) e
          modify fun s => { s with failed := true }
        | .ok place => search.visit run limits { path, place, depth := 0, start := path } 256
      (← get).pending.forM fun (_, words, files) => do
        if !(← Search.runCommand run (words ++ files)) then
          modify fun s => { s with failed := true }
    let (_, state) ← go.run {}
    return if state.failed then 1 else 0

end StorageLayout.Shell.Utility
