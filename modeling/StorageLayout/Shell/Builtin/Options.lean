import StorageLayout.Shell.Arithmetic
import StorageLayout.Shell.Machine

/-!
# Options of Built-in Commands

Telling letters after a dash from the arguments of a built-in command.

## Main definitions

* `takeOptions`: The options of a command, and the arguments after them.
-/

namespace StorageLayout.Shell.Builtin

/-- A letter, and the text that it takes. -/
abbrev OptionGiven := Char × String

/-- Whether a command has an option of a letter, and whether it takes a text. The letters are listed
with a colon after those that take one. -/
def optionKind? (letters : List Char) (c : Char) : Option Bool :=
  match letters with
  | [] => none
  | l :: rest =>
    if l = c && c ≠ ':' then some (rest.head? = some ':') else optionKind? rest c

/-- The options that the characters after a dash give, and the arguments that are left. -/
def lettersOf (letters : List Char) : List Char → List String →
    Step (List OptionGiven × List String)
  | [], rest => return ([], rest)
  | c :: cs, rest => do
    match optionKind? letters c with
    | none => fault s!"Illegal option -{c}"
    | some false =>
      let (given, rest) ← lettersOf letters cs rest
      return ((c, "") :: given, rest)
    | some true =>
      if cs.isEmpty then
        match rest with
        | [] => fault s!"No arg for -{c} option"
        | text :: rest => return ([(c, text)], rest)
      else return ([(c, String.ofList cs)], rest)

/-- The options of a command, and the arguments after them. Each argument gives at least one, so
`fuel` need not exceed their number. -/
def takeOptionsFrom (letters : List Char) : (fuel : Nat) → List String →
    Step (List OptionGiven × List String)
  | 0, arguments => return ([], arguments)
  | fuel + 1, arguments => do
    match arguments with
    | "--" :: rest => return ([], rest)
    | word :: rest =>
      match word.toList with
      | '-' :: c :: cs =>
        let (given, rest) ← lettersOf letters (c :: cs) rest
        let (more, rest) ← takeOptionsFrom letters fuel rest
        return (given ++ more, rest)
      | _ => return ([], word :: rest)
    | [] => return ([], [])

/-- The options of a command with certain letters, and the arguments after them. -/
def takeOptions (letters : String) (arguments : List String) :
    Step (List OptionGiven × List String) :=
  takeOptionsFrom letters.toList (arguments.length + 1) arguments

/-- The number that an argument is, which must not be negative. -/
def countOf (word : String) : Step Nat := do
  match integer? word with
  | some n => if 0 ≤ n && n ≤ 2147483647 then return n.toNat else fault s!"Illegal number: {word}"
  | none => fault s!"Illegal number: {word}"

/-- Stops unless a text can be the name of a variable. -/
def requireName (name : String) : Step Unit := do
  if !Reader.isName name then fault s!"{name}: bad variable name"

/-- Splits an argument at its first equals sign. -/
def splitAssignment (word : String) : String × Option String :=
  let cs := word.toList
  match cs.dropWhile (· ≠ '=') with
  | [] => (word, none)
  | _ :: value => (String.ofList (cs.takeWhile (· ≠ '=')), some (String.ofList value))

end StorageLayout.Shell.Builtin
