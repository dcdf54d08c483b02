import StorageLayout.Shell.Builtin.Options
import StorageLayout.Shell.Escape

/-!
# Built-in Commands for Variables

Setting what a process keeps: variables, positional parameters, options and aliases.

## Main definitions

* `declare`: Exports variables, or fixes them.
* `unset`, `makeLocals`: Take variables away, or make them those of a function.
* `configure`: Sets options and positional parameters.
* `shift`, `getOption`: Go through positional parameters.
* `nameText`, `forgetText`: Names that stand for the text of commands.
-/

namespace StorageLayout.Shell.Builtin

/-! ## Variables -/

/-- A line that sets a variable. -/
def settingLine (start name : String) (value : Option String) : String :=
  match value with
  | some value => s!"{start}{name}={singleQuoted value}\n"
  | none => s!"{start}{name}\n"

/-- Writes the variables that satisfy `p`, in ascending order of their names. -/
def listVariables (start : String) (p : Variable → Bool) : Step Unit := do
  let shown := (← theProcess).vars.filter fun e => p e.2
  (shown.mergeSort fun a b => a.1 ≤ b.1).forM fun (name, v) => say (settingLine start name v.value)

/-- Exports variables, or fixes them; without names, writes those for which that has been done. -/
def declare (command : String) (fixed : Bool) (arguments : List String) : Step Nat := do
  let (given, words) ← takeOptions "p" arguments
  if words.isEmpty || !given.isEmpty then
    listVariables (command ++ " ") fun v => if fixed then v.fixed else v.exported
  else
    words.forM fun word => do
      let (name, value) := splitAssignment word
      let mark : Step Unit := changeProcess fun p => { p with
        vars := p.vars.change name fun v =>
          let v : Variable := v.getD { value := none }
          if fixed then { v with fixed := true } else { v with exported := true } }
      match value, ← findVariable? name with
      | none, some _ => mark
      | value, _ =>
        requireName name
        setVariable name value false
        mark
  return 0

/-- Takes variables or functions away. -/
def unset (arguments : List String) : Step Nat := do
  let (given, names) ← takeOptions "vf" arguments
  let functions := (given.getLast?.map (·.1)) = some 'f'
  names.forM fun name => do
    if functions then
      changeProcess fun p => { p with functions := p.functions.filter (·.1 ≠ name) }
    else
      requireName name
      unsetVariable name
  return 0

/-- Makes variables those of the function that is running. -/
def makeLocals (arguments : List String) : Step Nat := do
  if (← theProcess).functionDepth = 0 then fault "not in a function"
  arguments.forM fun word => do
    if word = "-" then makeOptionsLocal
    else
      let (name, value) := splitAssignment word
      requireName name
      makeLocal name
      match value with
      | some value => assign name value
      | none => return
  return 0

/-! ## Options and positional parameters -/

/-- The options of a shell: their names and letters, in the order in which they are listed. -/
def namedOptions : List (String × Char) :=
  [("errexit", 'e'), ("noglob", 'f'), ("ignoreeof", 'I'), ("interactive", 'i'), ("monitor", 'm'),
    ("noexec", 'n'), ("stdin", 's'), ("xtrace", 'x'), ("verbose", 'v'), ("vi", 'V'), ("emacs", 'E'),
    ("noclobber", 'C'), ("allexport", 'a'), ("notify", 'b'), ("nounset", 'u'), ("privileged", 'p'),
    ("nolog", 'l'), ("debug", 'd')]

/-- Switches an option. -/
def switchOption (letter : Char) (on : Bool) : Step Unit :=
  changeProcess fun p => { p with
    options :=
      if on then (if p.options.contains letter then p.options else p.options ++ [letter])
      else p.options.filter (· ≠ letter) }

/-- Switches the option of a letter, which there must be. -/
def switchLetter (letter : Char) (on : Bool) : Step Unit := do
  if namedOptions.any fun o => o.2 = letter && letter ≠ 'l' && letter ≠ 'd' then
    switchOption letter on
  else fault s!"Illegal option -{letter}"

/-- Switches the option of a name, which there must be. -/
def switchNamed (name : String) (on : Bool) : Step Unit := do
  match namedOptions.find? (·.1 = name) with
  | some (_, letter) => switchOption letter on
  | none => fault s!"Illegal option -o {name}"

/-- Writes all options: as a table, or as commands that set them. -/
def listOptions (table : Bool) : Step Unit := do
  let on := (← theProcess).options
  if table then say "Current option settings\n"
  namedOptions.forM fun (name, letter) => do
    let isOn := on.contains letter
    if table then
      let padded := name ++ String.ofList (List.replicate (16 - name.length) ' ')
      let state := if isOn then "on" else "off"
      say s!"{padded}{state}\n"
    else
      let sign := if isOn then "-" else "+"
      say s!"set {sign}o {name}\n"

/-- Switches the options of letters. A letter that stands for a name takes the next argument. -/
def switchLetters (on : Bool) : List Char → List String → Step (List String)
  | [], rest => return rest
  | 'o' :: cs, rest => do
    match rest with
    | [] =>
      listOptions on
      switchLetters on cs []
    | name :: rest =>
      switchNamed name on
      switchLetters on cs rest
  | c :: cs, rest => do
    switchLetter c on
    switchLetters on cs rest

/-- Sets options, and gives the arguments that become positional parameters; nothing if these stay
as they are. -/
def switchOptions : (fuel : Nat) → List String → Step (Option (List String))
  | 0, _ => return none
  | fuel + 1, arguments => do
    match arguments with
    | [] => return none
    | "-" :: rest =>
      switchOption 'x' false
      switchOption 'v' false
      return if rest.isEmpty then none else some rest
    | "--" :: rest => return some rest
    | word :: rest =>
      match word.toList with
      | '-' :: letters =>
        let rest ← switchLetters true letters rest
        switchOptions fuel rest
      | '+' :: letters =>
        let rest ← switchLetters false letters rest
        switchOptions fuel rest
      | _ => return some (word :: rest)

/-- Sets the positional parameters. -/
def setPositional (parameters : List String) : Step Unit :=
  changeProcess fun p => { p with
    positional := parameters, optionIndex := 1, optionOffset := none }

/-- Sets options and positional parameters; without arguments, writes all variables. -/
def configure (arguments : List String) : Step Nat := do
  if arguments.isEmpty then listVariables "" fun v => v.value.isSome
  else
    match ← switchOptions (arguments.length + 1) arguments with
    | some parameters => setPositional parameters
    | none => return 0
  return 0

/-- Drops positional parameters. -/
def shift (arguments : List String) : Step Nat := do
  let n ← match arguments with
    | [] => pure 1
    | word :: _ => countOf word
  let parameters := (← theProcess).positional
  if n > parameters.length then fault "can't shift that many"
  setPositional (parameters.drop n)
  return 0

/-! ## Going through options -/

/-- Where the search for options stands. -/
structure OptionSearch where
  index : Nat
  /-- The characters that are left of the argument before it, if any. -/
  letters : List Char
  finished : Bool := false

/-- Goes to the next option letter. -/
def OptionSearch.start (arguments : List String) (index : Nat) (offset : Option Nat) :
    OptionSearch :=
  let left := match offset with
    | some n => ((arguments[index - 2]?).getD "").toList.drop n
    | none => []
  if index > 1 && !left.isEmpty then { index, letters := left }
  else
    match arguments[index - 1]? with
    | some "--" => { index := index + 1, letters := [], finished := true }
    | some word =>
      match word.toList with
      | '-' :: c :: cs => { index := index + 1, letters := c :: cs }
      | _ => { index, letters := [], finished := true }
    | none => { index, letters := [], finished := true }

/-- Finds the next option among arguments. -/
def getOption (arguments : List String) : Step Nat := do
  match arguments with
  | letters :: name :: explicit =>
    let p ← theProcess
    let words := if explicit.isEmpty then p.positional else explicit
    let tooFar := explicit.isEmpty && p.optionIndex > words.length + 1
    let (index, offset) := if tooFar then (1, none) else (p.optionIndex, p.optionOffset)
    let search := OptionSearch.start words index offset
    let quiet := letters.toList.head? = some ':'
    let known := if quiet then letters.toList.tail else letters.toList
    let finish (index : Nat) (left : List Char) (answer : Char) : Step Nat := do
      assign "OPTIND" (toString index)
      requireName name
      assign name answer.toString
      let word := (words[index - 2]?).getD ""
      changeProcess fun p => { p with
        optionIndex := index
        optionOffset := if left.isEmpty then none else some (word.toList.length - left.length) }
      return if search.finished then 1 else 0
    match search.letters with
    | [] => finish search.index [] '?'
    | c :: cs =>
      match optionKind? known c with
      | none =>
        if quiet then assign "OPTARG" c.toString
        else
          complain s!"Illegal option -{c}\n"
          unsetVariable "OPTARG"
        finish search.index cs '?'
      | some false =>
        assign "OPTARG" ""
        finish search.index cs c
      | some true =>
        if !cs.isEmpty then
          assign "OPTARG" (String.ofList cs)
          finish search.index [] c
        else
          match words[search.index - 1]? with
          | some text =>
            assign "OPTARG" text
            finish (search.index + 1) [] c
          | none =>
            if quiet then
              assign "OPTARG" c.toString
              finish search.index [] ':'
            else
              complain s!"No arg for -{c} option\n"
              unsetVariable "OPTARG"
              finish search.index [] '?'
  | _ => fault "Usage: getopts optstring var [arg...]"

/-! ## Aliases -/

/-- Sets aliases, or writes them. -/
def nameText (arguments : List String) : Step Nat := do
  let line (name text : String) : String := s!"{name}={singleQuoted text}\n"
  if arguments.isEmpty then
    (← theProcess).aliases.forM fun (name, text) => say (line name text)
    return 0
  else
    let found ← arguments.mapM fun word => do
      match splitAssignment word with
      | (name, some text) =>
        if name = "" then
          complain s!"alias: {word} not found\n"
          return false
        changeProcess fun p => { p with aliases := p.aliases.put name text }
        return true
      | (name, none) =>
        match (← theProcess).aliases.find? name with
        | some text =>
          say (line name text)
          return true
        | none =>
          complain s!"alias: {name} not found\n"
          return false
    return if found.all id then 0 else 1

/-- Takes aliases away. -/
def forgetText (arguments : List String) : Step Nat := do
  let (given, names) ← takeOptions "a" arguments
  if !given.isEmpty then
    changeProcess fun p => { p with aliases := [] }
    return 0
  else
    let found ← names.mapM fun name => do
      if Assoc.contains name (← theProcess).aliases then
        changeProcess fun p => { p with aliases := p.aliases.filter (·.1 ≠ name) }
        return true
      else
        complain s!"unalias: {name} not found\n"
        return false
    return if found.all id then 0 else 1

end StorageLayout.Shell.Builtin
