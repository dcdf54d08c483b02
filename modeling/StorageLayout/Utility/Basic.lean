import StorageLayout.Shell.Streams

/-!
# Programs of the System

What programs other than the shell have in common.

A program gets arguments, reads and writes the streams of its process, and ends with a status. Some
programs run others, so that each is given a way to do so.

Options can stand anywhere among the arguments up to two dashes. Letters can follow one dash
together, and a long name, which may be cut short where it stays clear, follows two.

## Main definitions

* `Utility`: A program.
* `OptionTable`: The options of a program.
* `OptionTable.read`: Arguments, told apart.
* `alwaysQuoted`, `quotedIfNeeded`, `curlyQuoted`: Names in messages.
* `linesOf`: The lines of a text.
-/

namespace StorageLayout.Shell

/-- A way to run a program with its arguments: its status, or why it cannot be run. -/
abbrev Runner := List String → Step (Except Trouble Nat)

/-- A program, given a way to run others and its arguments. -/
abbrev Utility := Runner → List String → Step Nat

namespace Utility

/-! ## Names in messages -/

/-- Whether a character has a meaning to shells, so that a name with it is quoted in messages. -/
def isMeaningful (c : Char) : Bool :=
  c = ' ' || c = '!' || c = '"' || c = '$' || c = '&' || c = '\x27' || c = '(' || c = ')' || c = '*'
    || c = ';' || c = '<' || c = '=' || c = '>' || c = '?' || c = '[' || c = '\\' || c = '^'
    || c = '\x60' || c = '|' || c.toNat < 32 || c.toNat = 127

/-- A control character as an escape. -/
def controlEscape (c : Char) : String :=
  match c with
  | '\x07' => "\\a"
  | '\x08' => "\\b"
  | '\t' => "\\t"
  | '\n' => "\\n"
  | '\x0b' => "\\v"
  | '\x0c' => "\\f"
  | '\r' => "\\r"
  | c =>
    let n := c.toNat
    String.ofList ('\\' :: [n / 64, n / 8 % 8, n % 8].map fun d => Char.ofNat (48 + d))

/-- Characters between apostrophes, where `isOpen` says whether one is open. Control characters
stand in quotes of their own kind. -/
def quoteChars : Bool → List Char → String
  | true, [] => "'"
  | false, [] => ""
  | isOpen, c :: rest =>
    if c.toNat < 32 || c.toNat = 127 then
      (if isOpen then "'" else "") ++ "$'" ++ controlEscape c ++ "'" ++ quoteChars false rest
    else if c = '\x27' then
      (if isOpen then "'" else "") ++ "\\'" ++ quoteChars false rest
    else (if isOpen then "" else "'") ++ c.toString ++ quoteChars true rest

/-- A name in quotes. -/
def alwaysQuoted (s : String) : String :=
  let cs := s.toList
  let plain (c : Char) : Bool := 32 ≤ c.toNat && c.toNat ≠ 127 && c ≠ '"' && c ≠ '$' && c ≠ '\x60'
    && c ≠ '\\'
  if cs.contains '\x27' && cs.all plain then "\"" ++ s ++ "\""
  else "'" ++ quoteChars true cs

/-- A name, in quotes if a shell would not read it as it is. -/
def quotedIfNeeded (s : String) : String :=
  let cs := s.toList
  let isPlain := !cs.isEmpty && !cs.any isMeaningful && cs.head? ≠ some '#' && cs.head? ≠ some '~'
  if isPlain then s else alwaysQuoted s

/-- A text in typographic quotes. -/
def curlyQuoted (s : String) : String := octets "‘" ++ s ++ octets "’"

/-! ## Options -/

/-- The options of a program. -/
structure OptionTable where
  program : String
  /-- The letters, with a colon after those that take a text, and two after those that may take
  one. -/
  letters : String
  /-- The long names, with the letters they stand for. -/
  long : List (String × Char) := []
  /-- The status for arguments that are wrong. -/
  misuse : Nat := 1
  /-- Whether the first argument that is no option ends the options. -/
  inOrder : Bool := false
  /-- How the program is used, said when it is used in another way. -/
  usage : String := ""

/-- Arguments, told apart. -/
structure GivenOptions where
  options : List (Char × String) := []
  operands : List String := []

namespace GivenOptions

/-- Whether an option was given. -/
def has (g : GivenOptions) (c : Char) : Bool := g.options.any (·.1 = c)

/-- The text that an option was given last. -/
def text? (g : GivenOptions) (c : Char) : Option String :=
  (g.options.filter (·.1 = c)).getLast?.map (·.2)

/-- The last one given of some options. -/
def last? (g : GivenOptions) (cs : List Char) : Option Char :=
  (g.options.filter fun o => cs.contains o.1).getLast?.map (·.1)

end GivenOptions

namespace OptionTable

/-- Whether an option takes a text. -/
inductive Taking where
  | nothing
  | text
  /-- A text that stands in the same argument. -/
  | attached
deriving Repr, DecidableEq

/-- Whether there is an option of a letter, and whether it takes a text. -/
def kind? (t : OptionTable) (c : Char) : Option Taking := go t.letters.toList
where
  /-- Looks for the letter. -/
  go : List Char → Option Taking
    | [] => none
    | l :: rest =>
      if l = c && c ≠ ':' then
        some (match rest with
          | ':' :: ':' :: _ => .attached
          | ':' :: _ => .text
          | _ => .nothing)
      else go rest

/-- Adds an option in front. -/
def cons (o : Char × String) (g : GivenOptions) : GivenOptions :=
  { g with options := o :: g.options }

/-- The options that letters give, and whether the last one takes its text from the next argument.
-/
def readLetters (t : OptionTable) : List Char → Except String (List (Char × String) × Option Char)
  | [] => .ok ([], none)
  | c :: cs =>
    match t.kind? c with
    | none => .error s!"invalid option -- '{c}'"
    | some .nothing => do
      let (options, waiting) ← t.readLetters cs
      return ((c, "") :: options, waiting)
    | some .attached => .ok ([(c, String.ofList cs)], none)
    | some .text => if cs.isEmpty then .ok ([], some c) else .ok ([(c, String.ofList cs)], none)

/-- The option that a long name stands for. -/
def findLong (t : OptionTable) (name : String) : Except String Char :=
  match t.long.find? (·.1 = name) with
  | some (_, c) => .ok c
  | none =>
    match t.long.filter fun l => name.toList.isPrefixOf l.1.toList with
    | [(_, c)] => .ok c
    | [] => .error s!"unrecognized option '--{name}'"
    | several =>
      let possible := String.join (several.map fun l => s!" '--{l.1}'")
      .error s!"option '--{name}' is ambiguous; possibilities:{possible}"

/-- Tells arguments apart. Each argument is looked at once, so `fuel` need not exceed their number.
-/
def readFrom (t : OptionTable) : (fuel : Nat) → List String → Except String GivenOptions
  | 0, words => .ok { operands := words }
  | _, [] => .ok {}
  | fuel + 1, word :: rest =>
    match word.toList with
    | ['-', '-'] => .ok { operands := rest }
    | '-' :: '-' :: cs => do
      let name := String.ofList (cs.takeWhile (· ≠ '='))
      let attached := (cs.dropWhile (· ≠ '='))
      let c ← t.findLong name
      match t.kind? c, attached with
      | some .text, _ :: text | some .attached, _ :: text =>
        return cons (c, String.ofList text) (← t.readFrom fuel rest)
      | some .text, [] =>
        match rest with
        | [] => throw s!"option '--{name}' requires an argument"
        | text :: rest => return cons (c, text) (← t.readFrom fuel rest)
      | _, _ :: _ => throw s!"option '--{name}' doesn't allow an argument"
      | _, [] => return cons (c, "") (← t.readFrom fuel rest)
    | '-' :: c :: cs => do
      let (options, waiting) ← t.readLetters (c :: cs)
      let given ← match waiting, rest with
        | none, rest => t.readFrom fuel rest
        | some c, text :: rest => do
          let given ← t.readFrom fuel rest
          pure (cons (c, text) given)
        | some c, [] => throw s!"option requires an argument -- '{c}'"
      return options.foldr cons given
    | _ =>
      if t.inOrder then .ok { operands := word :: rest }
      else do
        let given ← t.readFrom fuel rest
        return { given with operands := word :: given.operands }

/-- Says what is wrong with the arguments of a program, and where help can be found. -/
def refuse (t : OptionTable) (reason : String) : Step Nat := do
  complain (s!"{t.program}: {reason}\n{t.usage}"
    ++ s!"Try '{t.program} --help' for more information.\n")
  return t.misuse

/-- Tells the arguments of a program apart and goes on with them. -/
def read (t : OptionTable) (arguments : List String) (body : GivenOptions → Step Nat) :
    Step Nat :=
  match t.readFrom (arguments.length + 1) arguments with
  | .ok given => body given
  | .error reason => t.refuse reason

end OptionTable

/-! ## Files and lines -/

/-- The place that a path names, without following a link at its end, whether or not anything is
there: its folder must be. -/
def placeOf (w : World) (here : FileTree.Trail) (path : String) :
    Except Trouble FileTree.Trail :=
  let cs := path.toList.reverse.dropWhile (· = '/')
  let stripped := if cs.isEmpty then path else String.ofList cs.reverse
  match w.walk here stripped false with
  | .ok t => .ok t
  | .error .missing => do
    let components := FileTree.pathComponents (ofOctets stripped)
    match components.reverse with
    | [] => throw .missing
    | name :: before =>
      let folder ← w.follow true (World.walkFuel before)
        (FileTree.start here stripped) before.reverse
      match w.kind? folder with
      | some .folder =>
        if name = "." || name = ".." then throw .missing else return name :: folder
      | some _ => throw .notFolder
      | none => throw .missing
  | .error e => .error e

/-- Says why something cannot be done. -/
def tell (program what : String) (e : Trouble) : Step Unit :=
  complain s!"{program}: {what}: {e.text}\n"

/-- Runs a program so that what it writes appears when it is over, after its complaints. -/
def atOnce (program : Utility) : Utility := fun run arguments => do
  let (output, n) ← collecting (program run arguments)
  say output
  return n

/-- The octets of a file, or of the input if the name is a dash. -/
def readOperand (name : String) : Step (Except Trouble String) :=
  if name = "-" then readAll 0 else readPath name

/-- The lines of a text, without their ends. -/
def linesOf (s : String) : List String :=
  match s.splitOn "\n" with
  | [] => []
  | pieces => if pieces.getLast? = some "" then pieces.dropLast else pieces

/-- Where characters that stand for octets which are no text begin. -/
def strayOctets : Nat := 0x10FF00

/-- The characters of a line. If it is no text, its octets above those of plain text are characters
of their own. -/
def charactersOf (line : String) : List Char :=
  match String.fromUTF8? ⟨(bytesOfOctets line).toArray⟩ with
  | some text => text.toList
  | none => line.toList.map fun c =>
    if c.toNat < 128 then c else Char.ofNat (strayOctets + c.toNat)

/-- The line that has some characters. -/
def lineOfCharacters (cs : List Char) : String :=
  String.join (cs.map fun c =>
    if c.toNat < 128 then c.toString
    else if strayOctets ≤ c.toNat then (Char.ofNat (c.toNat - strayOctets)).toString
    else octets c.toString)

/-- Lines as a text. -/
def unlines (ls : List String) : String := String.join (ls.map (· ++ "\n"))

/-- Does something for every operand, and fails if any of it does. -/
def forOperands (operands : List String) (act : String → Step Bool) : Step Nat := do
  let results ← operands.mapM act
  return if results.all id then 0 else 1

/-- The number that a text is, without a sign. -/
def natural? (s : String) : Option Nat :=
  if s ≠ "" && s.toList.all Char.isDigit then s.toNat? else none

/-- The name of a path without the folders before it. -/
def baseName (path : String) : String :=
  let cs := path.toList.reverse.dropWhile (· = '/')
  if cs.isEmpty then (if path = "" then "" else "/")
  else String.ofList (cs.takeWhile (· ≠ '/')).reverse

/-- The folders of a path. -/
def folderName (path : String) : String :=
  let cs := path.toList.reverse.dropWhile (· = '/')
  if cs.isEmpty then (if path = "" then "." else "/")
  else
    match cs.dropWhile (· ≠ '/') with
    | [] => "."
    | above =>
      match above.dropWhile (· = '/') with
      | [] => "/"
      | cs => String.ofList cs.reverse

/-- A path below a folder. -/
def below (folder name : String) : String :=
  if folder.toList.getLast? = some '/' then folder ++ name else folder ++ "/" ++ name

/-- A text at a width, filled with blanks before it. -/
def padLeft (width : Nat) (s : String) : String :=
  String.ofList (List.replicate (width - s.length) ' ') ++ s

/-- A text at a width, filled with blanks after it. -/
def padRight (width : Nat) (s : String) : String :=
  s ++ String.ofList (List.replicate (width - s.length) ' ')

end Utility

end StorageLayout.Shell
