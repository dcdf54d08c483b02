import StorageLayout.Json.Basic

/-!
# Declarations

One variable, member or element as compiler output describes it.

Both kinds of compiler output, the syntax trees and the emitted layouts, are brought into this
form before anything is resolved. A declaration does not hold the records of its members or of its
element but the keys under which its source keeps them.

A field that compiler output leaves out is null. The kind of type is not a field:
`Declaration.shape` reads it off the fields that are set, so that a declaration whose keys are null
counts as elementary whatever made it.

## Main definitions

* `Declaration`: A variable, member or element.
* `Shape`: The kinds of type, with what each needs to be expanded.
* `Declaration.shape`: The kind of type that the fields tell.
* `Declaration.withShape`: Sets the fields that tell a kind of type.
-/

namespace StorageLayout

/-- A variable, member or element. -/
structure Declaration where
  label : Json
  type : Json
  typeName : Json
  id : Json := .null
  visibility : Json := .null
  slot : Json := .null
  offset : Json := .null
  /-- Constants and immutables, which occupy no storage. -/
  constant : Bool := false
  /-- Whether this is an array of either kind. -/
  array : Bool := false
  /-- The number of elements of a fixed array. -/
  length : Json := .null
  /-- The key of a struct's members. -/
  members : Json := .null
  /-- The type of a mapping's keys. -/
  keyType : Json := .null
  /-- The key of an array's element or of a mapping's value. -/
  element : Json := .null
deriving Inhabited

/-- The kinds of type. -/
inductive Shape where
  | fixedArray (length element : Json)
  | dynamicArray (element : Json)
  | struct (members : Json)
  | mapping (keyType value : Json)
  | elementary
deriving Inhabited

/-- The kind of type that the fields of a declaration tell. A length makes a fixed array whatever
else is set; then an array, a struct and a mapping are looked for, in this order. -/
def Declaration.shape (d : Declaration) : Shape :=
  if !d.length.isNull then .fixedArray d.length d.element
  else if d.array then .dynamicArray d.element
  else if !d.members.isNull then .struct d.members
  else if !d.keyType.isNull && !d.element.isNull then .mapping d.keyType d.element
  else .elementary

/-- Sets the fields that tell a kind of type; the others stay. -/
def Declaration.withShape (d : Declaration) : Shape → Declaration
  | .fixedArray length element => { d with array := true, length, element }
  | .dynamicArray element => { d with array := true, element }
  | .struct members => { d with members }
  | .mapping keyType value => { d with keyType, element := value }
  | .elementary => d

end StorageLayout
