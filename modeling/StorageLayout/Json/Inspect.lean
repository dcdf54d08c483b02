import StorageLayout.Json.Basic
import StorageLayout.Number.Shortest
import StorageLayout.Text.Numeral
import StorageLayout.Text.Quoted

/-!
# Values in Messages

How a value appears inside a line or a message.

`Json.inspect` shows a value so that its kind can be seen: texts are quoted, lists stand in
brackets, objects in braces. `Json.display` shows a text as it is and everything else as
`inspect` does. A value that holds too long an integer cannot be shown; `Json.isShowable` tells.

## Main definitions

* `Json.inspect`: A value with its texts quoted.
* `Json.display`: A value as part of a line.
* `Json.isShowable`: Whether a value can be shown.
-/

namespace StorageLayout.Json

mutual

/-- A value with its texts quoted. -/
def inspect : Json → String
  | .null => "None"
  | .bool b => if b then "True" else "False"
  | .int n => toString n
  | .real x => x.text
  | .str s => Text.quoted s
  | .arr items => "[" ++ inspectItems items ++ "]"
  | .obj members => "\x7b" ++ inspectMembers members ++ "\x7d"

/-- The items of a list, separated by commas. -/
def inspectItems : List Json → String
  | [] => ""
  | [item] => item.inspect
  | item :: rest => item.inspect ++ ", " ++ inspectItems rest

/-- The members of an object, separated by commas. -/
def inspectMembers : List (String × Json) → String
  | [] => ""
  | [(name, value)] => Text.quoted name ++ ": " ++ value.inspect
  | (name, value) :: rest =>
    Text.quoted name ++ ": " ++ value.inspect ++ ", " ++ inspectMembers rest

end

/-- A value as part of a line: a text is shown as it is. -/
def display : Json → String
  | .str s => s
  | v => v.inspect

mutual

/-- Whether a value can be shown: no integer in it is too long. -/
def isShowable : Json → Bool
  | .int n => Text.isWritable n
  | .arr items => areShowable items
  | .obj members => valuesShowable members
  | _ => true

/-- Whether all items of a list can be shown. -/
def areShowable : List Json → Bool
  | [] => true
  | item :: rest => item.isShowable && areShowable rest

/-- Whether the values of all members can be shown. -/
def valuesShowable : List (String × Json) → Bool
  | [] => true
  | (_, v) :: rest => v.isShowable && valuesShowable rest

end

end StorageLayout.Json
