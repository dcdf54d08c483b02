import StorageLayout.Assoc
import StorageLayout.Number.Binary64

/-!
# JSON Values

The values that compiler output is made of.

Whole numbers and numbers with a fraction are different kinds of value: `1` and `1.0` are written
differently, although they are equal as numbers. Members of an object keep their order.

Three notions are shared by everything that reads compiler output. A value is *empty* when it
says nothing: null, false, zero, or a text, list or object without content; a reader that falls
back to a default does so for every empty value. Two values are the *same* when they are equal up
to the form of their numbers, truth values counting as one and zero, and up to the order of
members. And a value that is neither list nor object can serve as a *key*, which is its content
up to sameness.

## Main definitions

* `Json`: A value.
* `Json.get?`: The member of an object.
* `Json.isEmpty`: Whether a value says nothing.
* `Key`, `Json.key?`: What a value is when it serves as a key.
* `Json.same`: Whether two values are equal as data.
-/

namespace StorageLayout

/-- A JSON value. -/
inductive Json where
  | null
  | bool (b : Bool)
  /-- A number without point or exponent. -/
  | int (n : Int)
  /-- A number with point or exponent. -/
  | real (x : Binary64)
  | str (s : String)
  | arr (items : List Json)
  | obj (members : List (String × Json))
deriving Inhabited

/-- The members of an object, by name. -/
abbrev Record := Assoc String Json

/-- A value in the role of a key. Numbers that are equal are one key, and so are all results that
are no number. -/
inductive Key where
  | null
  | number (value : Rat)
  | infinity (negative : Bool)
  | nan
  | text (s : String)
deriving DecidableEq

namespace Json

/-- The members of an object. -/
def members? : Json → Option Record
  | .obj members => some members
  | _ => none

/-- A member of an object; nothing for a missing member and for any other value. -/
def get? (name : String) (v : Json) : Option Json := v.members?.bind (Assoc.find? name)

/-- A member that is an object itself. -/
def record? (name : String) (v : Json) : Option Record := (v.get? name).bind members?

/-- Whether a value is an object. -/
def isObject (v : Json) : Bool := v.members?.isSome

/-- Whether a value is null. -/
def isNull : Json → Bool
  | .null => true
  | _ => false

/-- Whether a value says nothing: null, false, zero, or empty. -/
def isEmpty : Json → Bool
  | .null => true
  | .bool b => !b
  | .int n => n = 0
  | .real x => x.toRat? = some 0
  | .str s => s = ""
  | .arr items => items.isEmpty
  | .obj members => members.isEmpty

/-- The text of a text value. -/
def str? : Json → Option String
  | .str s => some s
  | _ => none

/-- Whether a value is the given text. -/
def isText (s : String) : Json → Bool
  | .str t => t = s
  | _ => false

/-- What a value is as a key; lists and objects are none. -/
def key? : Json → Option Key
  | .null => some .null
  | .bool b => some (.number (if b then 1 else 0))
  | .int n => some (.number n)
  | .real .nan => some .nan
  | .real (.infinity negative) => some (.infinity negative)
  | .real .negativeZero => some (.number 0)
  | .real (.finite r) => some (.number r)
  | .str s => some (.text s)
  | .arr _ => none
  | .obj _ => none

mutual

/-- Whether two values are equal as data. -/
def same : Json → Json → Bool
  | .arr xs, .arr ys => sameItems xs ys
  | .obj xs, .obj ys => xs.length == ys.length && sameMembers xs ys
  | x, y => x.key?.isSome && x.key? == y.key?

/-- Whether two lists are equal item by item. -/
def sameItems : List Json → List Json → Bool
  | [], [] => true
  | x :: xs, y :: ys => x.same y && sameItems xs ys
  | _, _ => false

/-- Whether every member of the first object is one of the second. -/
def sameMembers : List (String × Json) → Record → Bool
  | [], _ => true
  | (name, x) :: xs, ys =>
    (match Assoc.find? name ys with
      | some y => x.same y
      | none => false) && sameMembers xs ys

end

end Json

end StorageLayout
