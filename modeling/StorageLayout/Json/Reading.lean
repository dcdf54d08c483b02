import StorageLayout.Error

/-!
# Reading Compiler Output

The steps by which readers take values apart, with the defect that each step can meet.

Compiler output is read on trust: a reader asks a value for a member or goes through its items
without looking at its kind first. Each such step is a function here, so that the readers say
only what they need and every departure from the expected shape ends in the right defect.

## Main definitions

* `Json.elements`: What going through a value yields.
* `Json.asRecord`: The members of a value that must be an object.
* `Json.asKey`: A value that must serve as a key.
* `Record.member`: A member that must be there.
* `Record.orEmpty`: A member that counts as an empty object when it says nothing.
-/

namespace StorageLayout

namespace Json

/-- What going through a value yields: the items of a list, the member names of an object, or the
characters of a text. Other values cannot be gone through. -/
def elements : Json → Except Error (List Json)
  | .arr items => .ok items
  | .obj members => .ok (members.map fun m => .str m.1)
  | .str s => .ok (s.toList.map fun c => .str c.toString)
  | _ => Defect.wrongKind.fail

/-- The members of a value that must be an object. -/
def asRecord : Json → Except Error Record
  | .obj members => .ok members
  | _ => Defect.notAnObject.fail

/-- A value that must serve as a key. -/
def asKey (v : Json) : Except Error Key :=
  match v.key? with
  | some k => .ok k
  | none => Defect.wrongKind.fail

/-- A value that must be a text. -/
def asText : Json → Except Error String
  | .str s => .ok s
  | _ => Defect.wrongKind.fail

end Json

namespace Record

/-- A member, or null when there is none. -/
def get (r : Record) (name : String) : Json := (r.find? name).getD .null

/-- A member, or an empty text when there is none. -/
def getText (r : Record) (name : String) : Json := (r.find? name).getD (.str "")

/-- A member, or an empty list when there is none. -/
def getList (r : Record) (name : String) : Json := (r.find? name).getD (.arr [])

/-- A member that must be there. -/
def member (r : Record) (name : String) : Except Error Json :=
  match r.find? name with
  | some v => .ok v
  | none => Defect.missingMember.fail

/-- A member that must be an object; a missing or empty one counts as an object without members. -/
def orEmpty (r : Record) (name : String) : Except Error Record :=
  if (r.get name).isEmpty then .ok [] else (r.get name).asRecord

end Record

end StorageLayout
