import StorageLayout.Json.Reading

/-!
# The Index of Emitted Layouts

The layouts that a compiler wrote for the contracts of a build, and the types they use.

Compiler output lists contracts by source and name; here they are listed by path and name in one.
Each contract brings a table of the types that its layout uses. The tables are merged, a type that
occurs in several keeping its place and taking the later record. A contract without variables
brings null or nothing.

## Main definitions

* `Index`: The contracts and the types of a build.
* `mergeTypes`: Adds the types of one contract.
* `Index.ofOutput`: The index of compiler output.
-/

namespace StorageLayout.Emitted

/-- A type of a table and the key it was first entered under. -/
structure Entry where
  key : Json
  record : Json
deriving Inhabited

/-- Types by key. -/
abbrev Types := Assoc Key Entry

/-- The contracts and the types of a build. -/
structure Index where
  contracts : Assoc String Json
  types : Types

/-- Enters a type. -/
def enterType (types : Types) (key record : Json) : Except Error Types := do
  let k ← key.asKey
  return types.change k fun present => ⟨(present.map (·.key)).getD key, record⟩

/-- Enters a type that is given as a pair of a key and a record. -/
def enterPair (types : Types) (pair : Json) : Except Error Types := do
  match ← pair.elements with
  | [key, record] => enterType types key record
  | _ => Defect.badContent.fail

/-- Adds the types of one contract. A value that says nothing adds none; besides an object, a list
of pairs is a table, too. -/
def mergeTypes (types : Types) (table : Json) : Except Error Types :=
  if table.isEmpty then .ok types
  else match table with
    | .obj members => members.foldlM (fun types m => enterType types (.str m.1) m.2) types
    | .arr pairs => pairs.foldlM enterPair types
    | .str _ => Defect.badContent.fail
    | _ => Defect.wrongKind.fail

/-- Enters a contract and the types of its layout. -/
def enterContract (source : String) (index : Index) (name : String) (contract : Json) :
    Except Error Index := do
  let types ← match contract.record? "storageLayout" with
    | some layout => mergeTypes index.types (layout.get "types")
    | none => pure index.types
  return ⟨index.contracts.put s!"{source}:{name}" contract, types⟩

/-- Enters the contracts of one source. -/
def enterSource (index : Index) (source : String) (named : Json) : Except Error Index :=
  match named with
  | .obj contracts => contracts.foldlM (fun index c => enterContract source index c.1 c.2) index
  | _ => .error (.contractsNotAnObject source)

/-- The index of compiler output. -/
def Index.ofOutput (output : Json) : Except Error Index :=
  match output.record? "contracts" with
  | none => .error .noContracts
  | some units => units.foldlM (fun index u => enterSource index u.1 u.2) ⟨[], []⟩

end StorageLayout.Emitted
