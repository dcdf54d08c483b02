import StorageLayout.Json.Basic
import StorageLayout.Number.Shortest
import StorageLayout.Text.Numeral

/-!
# Writing JSON

JSON text of a value, in ASCII.

Everything outside the printable ASCII range is escaped, by a letter where there is one and
otherwise by its UTF-16 code units. A number with a fraction is written with the fewest digits
that identify it. `Json.pretty` gives each item and member a line of its own, two spaces deeper
than its parent; `Json.compact` writes one line.

What is made to be read keeps to the limit for integers: `Json.pretty` stops before the first one
that has too many digits, and tells so. `Json.compact` writes integers of any size.

## Main definitions

* `Json.compact`: A value on one line.
* `Json.Written`: A text, and whether it is all there was to be written.
* `Json.pretty`: A value with a line for every item and member.
-/

namespace StorageLayout.Json

/-- One code unit as an escape. -/
def escapeUnit (n : Nat) : List Char := '\\' :: 'u' :: Text.hexWord 4 n

/-- One character of a string. -/
def escapeChar (c : Char) : List Char :=
  if c = '"' then ['\\', '"']
  else if c = '\\' then ['\\', '\\']
  else if c = '\n' then ['\\', 'n']
  else if c = '\r' then ['\\', 'r']
  else if c = '\t' then ['\\', 't']
  else if c = '\x08' then ['\\', 'b']
  else if c = '\x0c' then ['\\', 'f']
  else if 32 ≤ c.toNat ∧ c.toNat < 127 then [c]
  else if c.toNat < 0x10000 then escapeUnit c.toNat
  else escapeUnit (0xd800 + (c.toNat - 0x10000) / 0x400)
    ++ escapeUnit (0xdc00 + (c.toNat - 0x10000) % 0x400)

/-- A string with its quotes. -/
def quoteString (s : String) : String :=
  "\"" ++ String.ofList (s.toList.flatMap escapeChar) ++ "\""

/-- A number with a fraction; the values that are no finite numbers have names. -/
def realText : Binary64 → String
  | .nan => "NaN"
  | .infinity negative => if negative then "-Infinity" else "Infinity"
  | x => x.text

mutual

/-- A value on one line. -/
def compact : Json → String
  | .null => "null"
  | .bool b => if b then "true" else "false"
  | .int n => toString n
  | .real x => realText x
  | .str s => quoteString s
  | .arr items => "[" ++ compactItems items ++ "]"
  | .obj members => "\x7b" ++ compactMembers members ++ "\x7d"

/-- The items of a list on one line. -/
def compactItems : List Json → String
  | [] => ""
  | [item] => item.compact
  | item :: rest => item.compact ++ ", " ++ compactItems rest

/-- The members of an object on one line. -/
def compactMembers : List (String × Json) → String
  | [] => ""
  | [(name, v)] => quoteString name ++ ": " ++ v.compact
  | (name, v) :: rest => quoteString name ++ ": " ++ v.compact ++ ", " ++ compactMembers rest

end

/-- The start of a new line at a depth. -/
def newLine (depth : Nat) : String := "\n" ++ String.ofList (List.replicate (2 * depth) ' ')

/-- How far something has been written: its text, or what comes before the first integer in it that
is too long. -/
structure Written where
  text : String
  /-- Whether there is no such integer. -/
  isComplete : Bool
deriving Repr, DecidableEq

namespace Written

/-- A text that is written as it is. -/
def all (text : String) : Written := ⟨text, true⟩

/-- Nothing, since an integer is too long. -/
def stopped : Written := ⟨"", false⟩

/-- Writes on, unless writing has stopped. -/
def append (first next : Written) : Written :=
  if first.isComplete then ⟨first.text ++ next.text, next.isComplete⟩ else first

instance : Append Written := ⟨append⟩

/-- What is written in two steps is complete if both steps are. -/
@[simp]
theorem isComplete_append (a b : Written) :
    (a ++ b).isComplete = (a.isComplete && b.isComplete) := by
  change (append a b).isComplete = _
  unfold append
  split <;> simp_all

end Written

mutual

/-- A value over several lines, where its first line begins at a depth. -/
def prettyAt (depth : Nat) : Json → Written
  | .int n => if Text.isWritable n then .all (toString n) else .stopped
  | .arr [] => .all "[]"
  | .obj [] => .all "\x7b\x7d"
  | .arr items => .all ("[" ++ newLine (depth + 1)) ++ prettyItems (depth + 1) items
      ++ .all (newLine depth ++ "]")
  | .obj members => .all ("\x7b" ++ newLine (depth + 1)) ++ prettyMembers (depth + 1) members
      ++ .all (newLine depth ++ "\x7d")
  | v => .all v.compact

/-- The items of a list, each on its own lines. -/
def prettyItems (depth : Nat) : List Json → Written
  | [] => .all ""
  | [item] => prettyAt depth item
  | item :: rest => prettyAt depth item ++ .all ("," ++ newLine depth) ++ prettyItems depth rest

/-- The members of an object, each on its own lines. -/
def prettyMembers (depth : Nat) : List (String × Json) → Written
  | [] => .all ""
  | [(name, v)] => .all (quoteString name ++ ": ") ++ prettyAt depth v
  | (name, v) :: rest =>
    .all (quoteString name ++ ": ") ++ prettyAt depth v ++ .all ("," ++ newLine depth)
      ++ prettyMembers depth rest

end

/-- A value over several lines, two spaces deeper at each level. -/
def pretty (v : Json) : Written := prettyAt 0 v

end StorageLayout.Json
