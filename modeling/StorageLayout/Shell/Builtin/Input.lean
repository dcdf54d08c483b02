import StorageLayout.Shell.Builtin.Options

/-!
# Reading Lines

The built-in command that reads a line into variables.

A line is split at the separators like the fields of a command, but its last variable takes all
that is left, separators included. A backslash makes the character after it ordinary, and joins
lines.

## Main definitions

* `lineOf`: A line of an input, and how much of the input it took.
* `assignFields`: The texts that variables get of a line.
* `readLine`: Reads a line into variables.
-/

namespace StorageLayout.Shell.Builtin

/-- A character of a line, and whether a backslash made it ordinary. -/
abbrev LineChar := Char × Bool

/-- The first line of an input, how many characters it took, and whether it ended in a line feed.
Null characters do not count. -/
def lineOf (plain : Bool) : List Char → List LineChar × Nat × Bool
  | [] => ([], 0, false)
  | '\n' :: _ => ([], 1, true)
  | '\\' :: rest =>
    if plain then
      let (cs, n, ended) := lineOf plain rest
      (('\\', false) :: cs, n + 1, ended)
    else match rest with
      | [] => ([], 1, false)
      | '\n' :: rest =>
        let (cs, n, ended) := lineOf plain rest
        (cs, n + 2, ended)
      | c :: rest =>
        let (cs, n, ended) := lineOf plain rest
        ((c, true) :: cs, n + 2, ended)
  | c :: rest =>
    let (cs, n, ended) := lineOf plain rest
    (if c = '\x00' then cs else (c, false) :: cs, n + 1, ended)

/-- Whether a character is a separator. -/
def isSeparator (separators : String) (c : LineChar) : Bool :=
  !c.2 && separators.toList.contains c.1

/-- Whether a character is a separator that is a blank. -/
def isBlankOf (separators : String) (c : LineChar) : Bool :=
  isSeparator separators c && (c.1 = ' ' || c.1 = '\t' || c.1 = '\n')

/-- The text that the last variable gets: all of the rest, without blanks at its end; only the field
it begins with, if nothing but a single separator and blanks follow. -/
def lastField (separators : String) (cs : List LineChar) : List LineChar :=
  let field := cs.takeWhile (!isSeparator separators ·)
  let rest := cs.dropWhile (!isSeparator separators ·)
  let others := rest.filter (!isBlankOf separators ·)
  if others.length ≤ 1 && rest.all (isSeparator separators ·) then field
  else (cs.reverse.dropWhile (isBlankOf separators ·)).reverse

/-- A field, and what follows the separators after it. -/
def nextField (separators : String) (cs : List LineChar) : List LineChar × List LineChar :=
  let rest := (cs.dropWhile (!isSeparator separators ·)).dropWhile (isBlankOf separators ·)
  let rest := match rest with
    | c :: after => if isSeparator separators c then after else rest
    | [] => []
  (cs.takeWhile (!isSeparator separators ·), rest.dropWhile (isBlankOf separators ·))

/-- The texts that a number of variables get of a line. -/
def fieldsOfLine (separators : String) : (count : Nat) → List LineChar → List (List LineChar)
  | 0, _ => []
  | 1, cs => [lastField separators cs]
  | count + 1, cs =>
    let (field, rest) := nextField separators cs
    field :: fieldsOfLine separators count rest

/-- Reads a line into variables. The status says whether the line had an end. -/
def readLine (arguments : List String) : Step Nat := do
  let (given, names) ← takeOptions "p:r" arguments
  if names.isEmpty then fault "arg count"
  let plain := given.any (·.1 = 'r')
  let text := match ← readAll 0 with
    | .ok text => text
    | .error _ => ""
  let (line, taken, ended) := lineOf plain text.toList
  unread 0 (text.length - taken)
  let separators ← separators
  let fields := fieldsOfLine separators names.length (line.dropWhile (isBlankOf separators ·))
  (names.zip fields).forM fun (name, field) => do
    requireName name
    assign name (String.ofList (field.map (·.1)))
  return if ended then 0 else 1

end StorageLayout.Shell.Builtin
