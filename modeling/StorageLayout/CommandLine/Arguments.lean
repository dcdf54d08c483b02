import StorageLayout.CommandLine.Help
import StorageLayout.CommandLine.Similar
import StorageLayout.FileTree
import StorageLayout.Text.Blank

/-!
# Reading the Command Line

From words and environment to what is to be done.

The words of a command are first told apart: options, which begin with a dash, and others; two
dashes alone end the options. Then every parameter gets its value. Options that were given come
first, in the order in which they were given, then the name of the contract, then all other
options, from the environment or as they usually are. The first fault that is met is the one that
is reported. Only asking for help precedes everything but the telling apart.

## Main definitions

* `UsageFault`: What is wrong with a command line.
* `Given`: The words of a command line, told apart.
* `convert`: The value of a word for an option.
* `settle`: The values of all parameters of a context.
* `Request`: What is to be done.
* `Request.read`: The request that a command line makes.
-/

namespace StorageLayout.CommandLine

/-- What is wrong with the value of an option. -/
inductive ValueFault where
  | noSuchWord (value : String) (words : List String)
  | noNumber (value : String)
  | outOfRange (value low high : Int)
  | noFile (path : String)
  | isFolder (path : String)
  | isFile (path : String)
  | noTruthValue (value : String)
  /-- The value is no path at all, since it has a null character. It is not reported in words. -/
  | noPath
deriving Repr, DecidableEq

/-- What is wrong with a command line. -/
inductive UsageFault where
  | noSuchOption (spelling : String) (similar : List String)
  | noSuchCommand (word : String) (similar : List String)
  | missingCommand
  | missingContract
  | needsValue (spelling : String)
  | takesNoValue (spelling : String)
  | badValue (option : Choice) (fault : ValueFault)
  | extraWords (words : List String)
  /-- Nothing was said at all. -/
  | noWords
deriving Repr, DecidableEq

/-- Words in quotes, separated by commas. -/
def quotedList (words : List String) : String := ", ".intercalate (words.map Text.quoted)

/-- A fault of a value in words. -/
def ValueFault.text : ValueFault → String
  | .noSuchWord value words => s!"{Text.quoted value} is not one of {quotedList words}."
  | .noNumber value => s!"{Text.quoted value} is not a valid integer range."
  | .outOfRange value low high => s!"{value} is not in the range {low}<=x<={high}."
  | .noFile path => s!"File {Text.quoted path} does not exist."
  | .isFolder path => s!"File {Text.quoted path} is a directory."
  | .isFile path => s!"Directory {Text.quoted path} is a file."
  | .noTruthValue value =>
    s!"{Text.quoted value} is not a valid boolean. Recognized values: "
      ++ ", 0, 1, f, false, n, no, off, on, t, true, y, yes"
  | .noPath => ""

/-- A question after words that may have been meant. -/
def suggestion : List String → String
  | [] => ""
  | [word] => s!" Did you mean {Text.quoted word}?"
  | words =>
    let sorted := words.mergeSort fun a b => a ≤ b
    s!" (Did you mean one of: {quotedList sorted}?)"

/-- A fault in words. -/
def UsageFault.text : UsageFault → String
  | .noSuchOption spelling similar =>
    s!"No such option {Text.quoted spelling}." ++ suggestion similar
  | .noSuchCommand word similar => s!"No such command {Text.quoted word}." ++ suggestion similar
  | .missingCommand => "Missing command."
  | .missingContract => "Missing argument 'CONTRACT_NAME'."
  | .needsValue spelling => s!"Option {Text.quoted spelling} requires an argument."
  | .takesNoValue spelling => s!"Option {Text.quoted spelling} does not take a value."
  | .badValue option fault =>
    let hint := " / ".intercalate (option.spellings.map Text.quoted)
    s!"Invalid value for {hint}: {fault.text}"
  | .extraWords words =>
    let noun := if words.length = 1 then "argument" else "arguments"
    let listed := " ".intercalate words
    s!"Got unexpected extra {noun} ({listed})"
  | .noWords => ""

/-- The defect that a fault is, if it is not one of use. -/
def UsageFault.defect? : UsageFault → Option Defect
  | .badValue _ .noPath => some .badContent
  | _ => none

/-! ## Telling words apart -/

/-- What was said about an option. -/
inductive Saying where
  | switched (on : Bool)
  | value (text : String)
deriving Repr, DecidableEq

/-- The words of a command line, told apart. -/
structure Given where
  /-- Options with what was said about them, in order. -/
  options : List (Choice × Saying) := []
  /-- The words that are no options. -/
  others : List String := []
deriving Repr, DecidableEq

/-- Adds an option in front. -/
def Given.cons (option : Choice) (saying : Saying) (g : Given) : Given :=
  { g with options := (option, saying) :: g.options }

/-- Whether a spelling is a single dash with one letter. -/
def isShort (spelling : String) : Bool := spelling.length = 2

/-- The spellings with two dashes. -/
def longSpellings (options : List Choice) : List String :=
  options.flatMap fun o => (o.spellings ++ o.clearing).filter (!isShort ·)

/-- The option that a spelling with two dashes stands for, and whether it sets it. -/
def findLong? (options : List Choice) (spelling : String) : Option (Choice × Bool) :=
  options.findSome? fun o =>
    if isShort spelling then none
    else if o.spellings.contains spelling then some (o, true)
    else if o.clearing.contains spelling then some (o, false)
    else none

/-- The option that a dash and a letter stand for. -/
def findShort? (options : List Choice) (spelling : String) : Option Choice :=
  options.find? fun o => isShort spelling && o.spellings.contains spelling

/-- Splits a word at its first equals sign. -/
def splitEquals (word : String) : String × Option String :=
  let cs := word.toList
  match cs.dropWhile (· ≠ '=') with
  | [] => (word, none)
  | _ :: value => (String.ofList (cs.takeWhile (· ≠ '=')), some (String.ofList value))

/-- The switches that the letters after a single dash stand for. -/
def shortSwitches (options : List Choice) : List Char → Except UsageFault (List Choice)
  | [] => .ok []
  | c :: rest => do
    let spelling := String.ofList ['-', c]
    match findShort? options spelling with
    | none => throw (.noSuchOption spelling [])
    | some o =>
      let others ← shortSwitches options rest
      return o :: others

/-- Tells words apart. Unless options may be anywhere, the first word that is none ends them. -/
def tellApart (options : List Choice) (anywhere : Bool) :
    List String → Except UsageFault Given
  | [] => .ok {}
  | "--" :: rest => .ok { others := rest }
  | word :: rest =>
    if word.toList.head? = some '-' ∧ word ≠ "-" then
      let (spelling, attached) := splitEquals word
      match findLong? options spelling with
      | some (o, on) =>
        if o.kind = .switch then
          match attached with
          | some _ => .error (.takesNoValue spelling)
          | none => (tellApart options anywhere rest).map (·.cons o (.switched on))
        else
          match attached, rest with
          | some value, rest => (tellApart options anywhere rest).map (·.cons o (.value value))
          | none, value :: rest => (tellApart options anywhere rest).map (·.cons o (.value value))
          | none, [] => .error (.needsValue spelling)
      | none =>
        if word.toList.take 2 = ['-', '-'] then
          .error (.noSuchOption spelling (similar spelling (longSpellings options)))
        else do
          let switches ← shortSwitches options word.toList.tail
          let given ← tellApart options anywhere rest
          return switches.foldr (fun o g => g.cons o (.switched true)) given
    else if anywhere then
      (tellApart options anywhere rest).map fun g => { g with others := word :: g.others }
    else .ok { others := word :: rest }

/-! ## Values -/

/-- The value of an option. -/
inductive Value where
  | truth (b : Bool)
  | text (s : String)
  | number (n : Int)
deriving Repr, DecidableEq

/-- The truth value that a word stands for. -/
def truthValue? (word : String) : Option Bool :=
  let norm := String.ofList ((Text.trim word.toList).map Char.toLower)
  if ["1", "on", "t", "true", "y", "yes"].contains norm then some true
  else if ["", "0", "f", "false", "n", "no", "off"].contains norm then some false
  else none

/-- Whether a word cannot be a path. -/
def isNoPath (word : String) : Bool := word.toList.contains '\x00'

/-- The value of a word for an option of some kind. -/
def convert (files : FileTree) (kind : Kind) (word : String) : Except ValueFault Value :=
  match kind with
  | .switch =>
    match truthValue? word with
    | some b => .ok (.truth b)
    | none => .error (.noTruthValue word)
  | .text => .ok (.text word)
  | .word words =>
    if words.contains word then .ok (.text word) else .error (.noSuchWord word words)
  | .number low high =>
    match Text.decimal word.toList with
    | .error _ => .error (.noNumber word)
    | .ok n => if low ≤ n ∧ n ≤ high then .ok (.number n) else .error (.outOfRange n low high)
  | .path => if isNoPath word then .error .noPath else .ok (.text word)
  | .folder =>
    if isNoPath word then .error .noPath
    else if files.hasFile word then .error (.isFile word)
    else .ok (.text word)
  | .file =>
    if isNoPath word then .error .noPath
    else if files.hasFolder word then .error (.isFolder word)
    else if files.isPresent word then .ok (.text word)
    else .error (.noFile word)

/-- What the command line is read in. -/
structure Surroundings where
  files : FileTree
  environment : Assoc String String

/-- What the environment has for an option; an empty text counts as nothing. Help cannot be asked
for there. -/
def Surroundings.lookup? (s : Surroundings) (context : Context) (option : Choice) :
    Option String :=
  if option = help then none
  else (s.environment.find? (context.environmentName option)).filter (· ≠ "")

/-- The value of an option: what was said last, or what the environment has, or what usually stands.
A path that usually stands is looked at like any other. -/
def optionValue (s : Surroundings) (context : Context) (given : Given) (option : Choice) :
    Except UsageFault (Option Value) :=
  let said : Option Saying := (given.options.filter (·.1 = option)).getLast?.map (·.2)
  match said with
  | some (.switched on) => .ok (some (.truth on))
  | some (.value word) => (convert s.files option.kind word).map some |>.mapError (.badValue option)
  | none =>
    match s.lookup? context option <|> option.usual with
    | some word => (convert s.files option.kind word).map some |>.mapError (.badValue option)
    | none => .ok none

/-- The values of the parameters of a context. -/
structure Settings where
  options : Assoc String Value := []
  contract : String := ""

namespace Settings

/-- The text of an option, if it has one. -/
def text? (s : Settings) (o : Choice) : Option String :=
  match s.options.find? o.name with
  | some (.text t) => some t
  | _ => none

/-- The text of an option that always has one. -/
def text (s : Settings) (o : Choice) : String := (s.text? o).getD ""

/-- Whether a switch is on. -/
def isOn (s : Settings) (o : Choice) : Bool := s.options.find? o.name = some (.truth true)

/-- The number of an option that always has one. -/
def number (s : Settings) (o : Choice) : Int :=
  match s.options.find? o.name with
  | some (.number n) => n
  | _ => 0

end Settings

/-- Options without those that come again later in the list. -/
def firstMentions (options : List Choice) : List Choice := options.foldl
  (fun seen o => if seen.contains o then seen else seen ++ [o]) []

/-- The values of options, in the given order. -/
def optionValues (s : Surroundings) (context : Context) (given : Given) (options : List Choice) :
    Except UsageFault (Assoc String Value) := do
  let values ← options.mapM fun o => do
    let value ← optionValue s context given o
    return value.map fun v => (o.name, v)
  return values.filterMap id

/-- The values of all parameters of a context; nothing when help is asked for. -/
def settle (s : Surroundings) (context : Context) (given : Given) :
    Except UsageFault (Option Settings) := do
  let asked ← optionValue s context given help
  if asked = some (.truth true) then return none
  let mentioned := (firstMentions (given.options.map (·.1))).filter (· ≠ help)
  let others := context.options.filter fun o => o ≠ help && !mentioned.contains o
  let first ← optionValues s context given mentioned
  if context.takesContract && given.others.isEmpty then throw .missingContract
  let second ← optionValues s context given others
  let extra := if context.takesContract then given.others.tail else given.others
  if context ≠ .program && !extra.isEmpty then throw (.extraWords extra)
  return some { options := first ++ second, contract := given.others.head?.getD "" }

/-! ## Requests -/

/-- What is to be done. -/
inductive Request where
  | help (context : Context)
  | run (command : Command) (settings : Settings)

/-- Reads the words that the program itself gets: what follows its own options. Nothing when help is
asked for. -/
def readProgram (s : Surroundings) (words : List String) :
    Except UsageFault (Option (List String)) := do
  let given ← tellApart Context.program.options false words
  let settings ← settle s .program given
  return settings.map fun _ => given.others

/-- Reads the words of a command. -/
def readCommand (s : Surroundings) (c : Command) (words : List String) :
    Except UsageFault Request := do
  let given ← tellApart (Context.command c).options true words
  match ← settle s (.command c) given with
  | some settings => return .run c settings
  | none => return .help (.command c)

/-- The request that a command line makes, or its fault with the context that it occurs in. A word
that is no command but looks like an option is read as one before it is refused. -/
def Request.read (s : Surroundings) (words : List String) :
    Except (Context × UsageFault) Request := do
  let inProgram {α : Type} (r : Except UsageFault α) : Except (Context × UsageFault) α :=
    r.mapError (Context.program, ·)
  if words.isEmpty then throw (.program, .noWords)
  match ← inProgram (readProgram s words) with
  | none => return .help .program
  | some [] => throw (.program, .missingCommand)
  | some (word :: rest) =>
    match Command.ofWord? word with
    | some c => (readCommand s c rest).mapError (Context.command c, ·)
    | none =>
      if word.toList.head? = some '-' then
        match ← inProgram (readProgram s (word :: rest)) with
        | none => return .help .program
        | some _ => throw (.program, .noSuchCommand word (similar word commandWords))
      else throw (.program, .noSuchCommand word (similar word commandWords))
where
  /-- The words for commands. -/
  commandWords : List String := Command.all.map Command.word

end StorageLayout.CommandLine
