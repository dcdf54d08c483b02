import StorageLayout.Shell.Builtin.Folder
import StorageLayout.Shell.Builtin.Output
import StorageLayout.Shell.Condition
import StorageLayout.Shell.Lookup
import StorageLayout.Utility.Sorting

/-!
# Programs that Write a Few Words

Parts of paths, numbers in order, variables, conditions, and what is known of the system.

A system is known by little: it has one user, and its time does not go on.

## Main definitions

* `stripFolders`, `stripName`: Parts of paths.
* `writeSequence`: Numbers in order.
* `writeWords`, `writeFormatted`: Arguments.
* `checkCondition`: Whether a condition holds.
* `writeVariables`, `locatePrograms`, `writeUser`, `writeSystem`, `writeDate`: What is known.
* `makeTemporary`: A file or a folder that was not there.
-/

namespace StorageLayout.Shell.Utility

/-! ## Parts of paths -/

/-- A name without an ending, unless it is nothing else. -/
def withoutEnding (ending name : String) : String :=
  let cs := name.toList
  let suffix := ending.toList
  if suffix.isSuffixOf cs && cs.length > suffix.length then
    String.ofList (cs.take (cs.length - suffix.length))
  else name

/-- Writes paths without the folders in them. -/
def stripFolders : Utility := fun _ arguments =>
  let table : OptionTable :=
    { program := "basename", letters := "as:z", inOrder := true
      long := [("multiple", 'a'), ("suffix", 's'), ("zero", 'z')] }
  table.read arguments fun given => do
    let finish := if given.has 'z' then "\x00" else "\n"
    let write (ending name : String) : Step Unit :=
      say (withoutEnding ending (baseName name) ++ finish)
    match given.has 'a' || given.has 's', given.operands with
    | _, [] => table.refuse "missing operand"
    | true, names =>
      names.forM (write ((given.text? 's').getD ""))
      return 0
    | false, [name] =>
      write "" name
      return 0
    | false, [name, ending] =>
      write ending name
      return 0
    | false, _ :: _ :: extra :: _ => table.refuse s!"extra operand {curlyQuoted extra}"

/-- Writes the folders of paths. -/
def stripName : Utility := fun _ arguments =>
  let table : OptionTable := { program := "dirname", letters := "z", long := [("zero", 'z')] }
  table.read arguments fun given => do
    if given.operands.isEmpty then return (← table.refuse "missing operand")
    let finish := if given.has 'z' then "\x00" else "\n"
    given.operands.forM fun path => say (folderName path ++ finish)
    return 0

/-! ## Numbers in order -/

/-- A number as it is written: its value, and how many digits there are after its point. -/
structure Decimal where
  value : Rat
  places : Nat

/-- The number that a word is. -/
def Decimal.ofWord? (word : String) : Option Decimal :=
  let cs := word.toList
  let body := match cs with
    | '-' :: rest | '+' :: rest => rest
    | cs => cs
  match decimalAt? body with
  | some (_, _, []) =>
    (scientificNumber? cs).map fun value =>
      let mantissa := body.takeWhile fun c => c ≠ 'e' && c ≠ 'E'
      let places := ((mantissa.dropWhile (· ≠ '.')).drop 1).length
      let exponent := (String.ofList ((body.drop mantissa.length).drop 1)).toInt?.getD 0
      ⟨value, ((places : Int) - exponent).toNat⟩
  | _ => none

/-- A number with so many digits after its point. -/
def fixedText (places : Nat) (r : Rat) : String :=
  let n := (r * ((Nat.pow 10 places : Nat) : Rat)).floor
  let digits := (toString n.natAbs).toList
  let digits := List.replicate (places + 1 - digits.length) '0' ++ digits
  let whole := digits.take (digits.length - places)
  let fraction := digits.drop (digits.length - places)
  let sign := if n < 0 then "-" else ""
  sign ++ String.ofList (whole ++ (if places = 0 then [] else '.' :: fraction))

/-- The most numbers that are written. -/
def longestSequence : Nat := 100000

/-- Numbers from a first one on by steps, as long as they are not beyond a last one. -/
def sequenceFrom (step last : Rat) : (fuel : Nat) → Rat → List Rat
  | 0, _ => []
  | fuel + 1, r =>
    if (step > 0 && r > last) || (step < 0 && r < last) then []
    else r :: sequenceFrom step last fuel (r + step)

/-- Writes numbers in order. -/
def writeSequence : Utility := fun _ arguments =>
  let table : OptionTable :=
    { program := "seq", letters := "f:s:w", inOrder := true
      long := [("format", 'f'), ("separator", 's'), ("equal-width", 'w')] }
  let isNumber (word : String) : Bool := (Decimal.ofWord? word).isSome
  let options := arguments.takeWhile (!isNumber ·)
  let guarded := if options.length = arguments.length || options.contains "--" then arguments
    else options ++ "--" :: arguments.drop options.length
  -- The text of an option can be a number, too.
  let guarded := match options.getLast? with
    | some "-s" | some "-f" => arguments
    | _ => guarded
  table.read guarded fun given => do
    let numbers := given.operands.map fun w => (w, Decimal.ofWord? w)
    let write (first step last : Decimal) : Step Nat := do
      let places := max first.places step.places
      let values := sequenceFrom step.value last.value longestSequence first.value
      let texts := values.map (fixedText places)
      let texts ← match given.text? 'f' with
        | none => pure texts
        | some format => pure (texts.map fun t => String.ofList (formatAll format [t]).output)
      let width := (texts.map String.length).foldl max 0
      let widen (t : String) : String :=
        let zeros := List.replicate (width - t.length) '0'
        match t.toList with
        | '-' :: cs => String.ofList ('-' :: zeros ++ cs)
        | cs => String.ofList (zeros ++ cs)
      let texts := if given.has 'w' then texts.map widen else texts
      if !texts.isEmpty then say (((given.text? 's').getD "\n").intercalate texts ++ "\n")
      return 0
    let one : Decimal := ⟨1, 0⟩
    match numbers with
    | [] => table.refuse "missing operand"
    | _ :: _ :: _ :: (extra, _) :: _ => table.refuse s!"extra operand {curlyQuoted extra}"
    | _ =>
      match numbers.find? (·.2.isNone) with
      | some (word, _) => table.refuse s!"invalid floating point argument: {curlyQuoted word}"
      | none =>
        match numbers.filterMap fun n => n.2.map (n.1, ·) with
        | [(_, last)] => write one one last
        | [(_, first), (_, last)] => write first one last
        | [(_, first), (word, step), (_, last)] =>
          if step.value = 0 then
            table.refuse s!"invalid Zero increment value: {curlyQuoted word}"
          else write first step last
        | _ => return 1

/-! ## Arguments -/

/-- Writes arguments. Escapes are replaced only if that is wanted. -/
def writeWords : Utility := fun _ arguments => do
  let isOptions (word : String) : Bool :=
    match word.toList with
    | '-' :: c :: cs => (c :: cs).all fun c => c = 'n' || c = 'e' || c = 'E'
    | _ => false
  let options := (arguments.takeWhile isOptions).flatMap fun w => w.toList.tail
  let words := arguments.dropWhile isOptions
  let escapes := (options.filter fun c => c = 'e' || c = 'E').getLast? = some 'e'
  let newline := !options.contains 'n'
  if escapes then say (Builtin.echoText words newline)
  else say (" ".intercalate words ++ (if newline then "\n" else ""))
  return 0

/-- Puts values into a format. -/
def writeFormatted : Utility := fun _ arguments => do
  match if arguments.head? = some "--" then arguments.tail else arguments with
  | [] =>
    complain "printf: missing operand\nTry 'printf --help' for more information.\n"
    return 1
  | format :: values =>
    let formatted := formatAll format values
    formatted.warnings.forM fun w => do
      let value := String.ofList (w.toList.takeWhile (· ≠ ':'))
      complain s!"printf: {curlyQuoted value}: expected a numeric value\n"
    say (String.ofList formatted.output)
    return if formatted.warnings.isEmpty && formatted.failure.isNone then 0 else 1

/-- Says whether a condition holds. -/
def checkCondition (bracketed : Bool) : Utility := fun _ arguments => do
  let name := if bracketed then "[" else "test"
  if bracketed && arguments.getLast? ≠ some "]" then
    let closing := curlyQuoted "]"
    complain s!"{name}: missing {closing}\n"
    return 2
  let words := if bracketed then arguments.dropLast else arguments
  match Condition.holds (← theWorld) (← here) words with
  | .ok answer => return if answer then 0 else 1
  | .error reason =>
    complain s!"{name}: {reason.text}\n"
    return 2

/-- Writes where the process stands. -/
def writeFolder : Utility := fun _ _ => do
  say (Builtin.placeText (← here) ++ "\n")
  return 0

/-! ## What is known -/

/-- Writes variables that programs see. -/
def writeVariables : Utility := fun _ arguments => do
  let visible ← exports
  match arguments with
  | [] =>
    say (String.join (visible.map fun (name, value) => s!"{name}={value}\n"))
    return 0
  | names =>
    forOperands names fun name => do
      match visible.find? name with
      | some value =>
        say (value ++ "\n")
        return true
      | none => return false

/-- Writes the paths of programs. -/
def locatePrograms : Utility := fun _ arguments => do
  let names := arguments.filter fun a => a ≠ "-a" && a ≠ "--"
  if names.isEmpty then return 1
  let search ← valueOf? "PATH"
  forOperands names fun name => do
    if name.toList.contains '/' then
      match ← programOfPath name with
      | .ok _ =>
        say (name ++ "\n")
        return true
      | .error _ => return false
    else
      match ← searchProgram search name with
      | .ok (_, path) =>
        say (path ++ "\n")
        return true
      | .error _ => return false

/-- Writes who the user is. -/
def writeUser : Utility := fun _ arguments => do
  let letters := arguments.flatMap fun a => a.toList.filter (· ≠ '-')
  let named := letters.contains 'n'
  if ['u', 'g', 'G'].any letters.contains then say (if named then "root\n" else "0\n")
  else say "uid=0(root) gid=0(root) groups=0(root)\n"
  return 0

/-- Writes the name of the terminal, of which there is none. -/
def writeTerminal : Utility := fun _ _ => do
  say "not a tty\n"
  return 1

/-- Writes the kind of the system. -/
def writeSystem : Utility := fun _ arguments => do
  let letters := arguments.flatMap fun a => a.toList.filter (· ≠ '-')
  let parts := (if letters.isEmpty || letters.contains 's' then ["Linux"] else [])
    ++ (if letters.contains 'm' then ["x86_64"] else [])
  say (" ".intercalate parts ++ "\n")
  return 0

/-- What a letter stands for where a time is written. -/
def dateText (letter : Char) : String :=
  match letter with
  | 'Y' => "1970"
  | 'y' => "70"
  | 'm' | 'd' => "01"
  | 'H' | 'M' | 'S' => "00"
  | 'e' => " 1"
  | 'j' => "001"
  | 'F' => "1970-01-01"
  | 'T' => "00:00:00"
  | 'D' => "01/01/70"
  | 's' => "0"
  | 'N' => "000000000"
  | 'Z' => "UTC"
  | 'z' => "+0000"
  | 'a' => "Thu"
  | 'A' => "Thursday"
  | 'b' | 'h' => "Jan"
  | 'B' => "January"
  | 'u' | 'w' => "4"
  | 'n' => "\n"
  | 't' => "\t"
  | '%' => "%"
  | c => "%" ++ c.toString

/-- A format for times with its letters replaced. -/
def fillDate : List Char → String
  | '%' :: c :: rest => dateText c ++ fillDate rest
  | c :: rest => c.toString ++ fillDate rest
  | [] => ""

/-- Writes the time at which everything stands. -/
def writeDate : Utility := fun _ arguments =>
  let table : OptionTable :=
    { program := "date", letters := "ud:I::r:R", long := [("utc", 'u'), ("date", 'd')] }
  table.read arguments fun given => do
    match given.operands.find? fun w => w.toList.head? = some '+' with
    | some format => say (fillDate format.toList.tail ++ "\n")
    | none =>
      if given.has 'I' then say "1970-01-01\n" else say "Thu Jan  1 00:00:00 UTC 1970\n"
    return 0

/-! ## Temporary files -/

/-- Letters for a number, so many of them. -/
def lettersOf : (count : Nat) → Nat → List Char
  | 0, _ => []
  | count + 1, n => lettersOf count (n / 26) ++ [Char.ofNat (97 + n % 26)]

/-- Makes a file, or a folder, that was not there, and writes its path. -/
def makeTemporary : Utility := fun _ arguments =>
  let table : OptionTable :=
    { program := "mktemp", letters := "dp:qtu"
      long := [("directory", 'd'), ("quiet", 'q'), ("dry-run", 'u'), ("tmpdir", 'p')] }
  table.read arguments fun given => do
    let template := given.operands.headD "tmp.XXXXXXXXXX"
    let inFolder := given.operands.isEmpty || given.has 'p' || given.has 't'
    let usual := (← valueOf? "TMPDIR").getD "/tmp"
    let path := if inFolder then below ((given.text? 'p').getD usual) template else template
    let cs := path.toList.reverse
    let marks := (cs.takeWhile (· = 'X')).length
    if marks < 3 then
      complain s!"mktemp: too few X's in template {curlyQuoted template}\n"
      return 1
    let start := String.ofList (cs.drop marks).reverse
    let w ← theWorld
    let folder ← here
    let candidates := (List.range 1000).map fun n => start ++ String.ofList (lettersOf marks n)
    match candidates.find? fun c => (w.walk folder c false).toOption.isNone with
    | none => return 1
    | some name =>
      match w.walkNew folder name with
      | .error e =>
        let kind := if given.has 'd' then "directory" else "file"
        tell "mktemp" s!"failed to create {kind} via template {curlyQuoted path}" e
        return 1
      | .ok t =>
        if !given.has 'u' then
          changeWorld fun w =>
            if given.has 'd' then (w.put t .empty).setMode t 0o700
            else (w.write t "").setMode t 0o600
        say (name ++ "\n")
        return 0

end StorageLayout.Shell.Utility
