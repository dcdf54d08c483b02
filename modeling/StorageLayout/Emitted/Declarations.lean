import StorageLayout.ArrayLength
import StorageLayout.Declaration
import StorageLayout.Emitted.Index

/-!
# Declarations in Emitted Layouts

The storage entries and struct members of emitted layouts, as declarations.

An entry names its type by key and carries a slot and an offset, which may be written as numbers
or as numerals. The type's record tells the shape: a mapping has key and value, an array a base, a
struct members. The length of a fixed array stands at the end of the type's key or, if the key
has none, at the end of its label.

## Main definitions

* `wholeNumber`: A slot or an offset.
* `shape`: The shape that a type's record describes.
* `Index.entry`: A storage entry or member as a declaration.
* `Index.storage`: The entries of a contract.
* `Index.members`, `Index.element`: What the resolver asks for.
-/

namespace StorageLayout.Emitted

/-- Why a value is no slot or offset. -/
inductive NumberFault where
  /-- The fault makes the whole entry bad. -/
  | entry (fault : EntryFault)
  /-- An infinity, which is no fault of the entry's form. -/
  | infinite

/-- The whole number that a value gives: a number without its fraction, or a numeral. -/
def wholeNumber : Json → Except NumberFault Int
  | .int n => .ok n
  | .bool b => .ok (if b then 1 else 0)
  | .real .nan => .error (.entry .notANumber)
  | .real (.infinity _) => .error .infinite
  | .real .negativeZero => .ok 0
  | .real (.finite r) => .ok (Binary64.truncate r)
  | .str s =>
    match Text.decimal s.toList with
    | .ok n => .ok n
    | .error .malformed => .error (.entry (.badNumeral s))
    | .error (.tooLong digits) => .error (.entry (.longNumeral digits))
  | v => .error (.entry (.noNumber v))

/-- A slot or an offset of an entry. -/
def entryNumber (entry value : Json) : Except Error Int :=
  match wholeNumber value with
  | .ok n => .ok n
  | .error (.entry fault) => .error (.badEntry entry fault)
  | .error .infinite => Defect.tooGreat.fail

/-- A member that an entry must have. -/
def entryMember (entry : Record) (name : String) : Except Error Json :=
  match entry.find? name with
  | some v => .ok v
  | none => .error (.badEntry (.obj entry) (.missing name))

/-- The length of a fixed array type, from its key or else from its label. -/
def arrayLength (key : Json) (record : Record) : Except Error Json := do
  let keyText ← key.asText
  match boundOfKey? keyText with
  | some digits => lengthOfDigits digits
  | none => do
    let label ← (record.getText "label").asText
    match boundOfLabel? label with
    | some digits => lengthOfDigits digits
    | none => throw (.unreadableTypeLength key)

/-- The shape that the record of a type describes. -/
def shape (key : Json) (record : Record) : Except Error Shape :=
  let encoding := record.get "encoding"
  if encoding.isText "mapping" then do
    let keyType ← record.member "key"
    let value ← record.member "value"
    return .mapping keyType value
  else match record.find? "base" with
    | some base =>
      if encoding.isText "dynamic_array" then .ok (.dynamicArray base)
      else do
        let length ← arrayLength key record
        return .fixedArray length base
    | none =>
      if record.contains "members" then .ok (.struct key) else .ok .elementary

/-- The name of a type: its label, or the key when it has none. -/
def typeName (key : Json) (record : Record) : Json := (record.find? "label").getD key

namespace Index

/-- The record of the type with a key. -/
def typeRecord (index : Index) (key : Json) : Except Error Json := do
  let k ← key.asKey
  match index.types.find? k with
  | some found => return found.record
  | none => throw (.unresolved key)

/-- A storage entry or struct member as a declaration. -/
def entry (index : Index) (value : Json) : Except Error Declaration :=
  match value.members? with
  | some fields => do
    let key ← entryMember fields "type"
    let label ← entryMember fields "label"
    let slot ← entryMember fields "slot" >>= entryNumber value
    let offset ← entryNumber value ((fields.find? "offset").getD (.int 0))
    let record ← index.typeRecord key >>= Json.asRecord
    let shape ← shape key record
    return Declaration.withShape
      { label
        type := key
        typeName := typeName key record
        id := fields.get "astId"
        slot := .int slot
        offset := .int offset } shape
  | none => .error (.badEntry value (.notAnObject value))

/-- The entries in a list, in order. -/
def entries (index : Index) (list : Json) : Except Error (List Declaration) := do
  let list ← list.elements
  list.mapM index.entry

/-- The storage entries of a contract. -/
def storage (index : Index) (fullName : String) : Except Error (List Declaration) :=
  match index.contracts.find? fullName with
  | none | some .null => .error (.contractMissing fullName)
  | some contract =>
    match contract.record? "storageLayout" with
    | none => .error (.noStorageLayout fullName)
    | some layout =>
      let list := layout.get "storage"
      if list.isEmpty then .ok [] else index.entries list

/-- The members of the struct type with a key. -/
def members (index : Index) (key : Json) : Except Error (List Declaration) := do
  let record ← index.typeRecord key >>= Json.asRecord
  index.entries (record.getList "members")

/-- The element or value type with a key, as a declaration without a name. -/
def element (index : Index) (key : Json) : Except Error Declaration := do
  let record ← index.typeRecord key >>= Json.asRecord
  let shape ← shape key record
  return Declaration.withShape
    { label := .str "", type := key, typeName := typeName key record } shape

end Index

end StorageLayout.Emitted
