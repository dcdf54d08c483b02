import StorageLayout.ArrayLength
import StorageLayout.Ast.Index
import StorageLayout.Declaration

/-!
# Declarations in Syntax Trees

The variables of contracts and structs, read from syntax trees.

Trees tell the shape of types but no slots. A contract's variables are those of its linearized
bases, the most basic first, for the list of bases begins with the most derived contract. The
shape of a type follows from its node: arrays and mappings name the node of their element or
value, and a type that the source defines refers to its definition, which counts only if it is a
struct. Contracts, enums and the like stay closed.

The length of a fixed array is its length expression when that is a literal. A constant
expression is not evaluated here: the type's description has it folded.

## Main definitions

* `Index.node`: The object with an id.
* `Index.shape`: The shape that a type node describes.
* `Index.declaration`: A variable as a declaration.
* `Index.storage`: The variables of a contract with its bases.
* `Index.members`, `Index.element`: What the resolver asks for.
-/

namespace StorageLayout.Ast

namespace Index

/-- The object with an id. -/
def node (index : Index) (id : Json) : Except Error Record := do
  let key ← id.asKey
  match index.nodes.find? key with
  | some found => return found.record
  | none => throw (.unresolved id)

end Index

/-- The id of the type node that another one names. -/
def childId (typeNode : Record) (field : String) : Except Error Json :=
  match ((typeNode.get field).members?.bind (Assoc.find? "id")) with
  | some id => .ok id
  | none => .error (.missingChild (typeNode.get "nodeType") (typeNode.get "id") field)

/-- The number that a length expression gives as a literal. -/
def literalLength? (length : Json) : Option Int :=
  match length.get? "value" with
  | some (.str text) => (Text.prefixed text.toList).toOption
  | _ => none

/-- The length of an array type node: null for a dynamic array, otherwise the literal or, when there
is none, the bound at the end of the type's description. -/
def arrayLength (typeNode : Record) : Except Error Json :=
  let length := typeNode.get "length"
  if length.isNull then .ok .null
  else match literalLength? length with
    | some n => .ok (.int n)
    | none => do
      let description ← typeNode.orEmpty "typeDescriptions"
      let label ← (description.getText "typeString").asText
      match boundOfLabel? label with
      | some digits => lengthOfDigits digits
      | none => throw (.unreadableNodeLength (typeNode.get "id"))

/-- An array of either kind, told apart by the length. -/
def arrayShape (length element : Json) : Shape :=
  if length.isNull then .dynamicArray element else .fixedArray length element

/-- The type of the keys of a mapping type node. -/
def mappingKeyType (typeNode : Record) : Except Error Json := do
  let keyType ← typeNode.orEmpty "keyType"
  let description ← keyType.orEmpty "typeDescriptions"
  return description.getText "typeIdentifier"

namespace Index

/-- The shape that a type node describes. -/
def shape (index : Index) (typeNode : Json) : Except Error Shape :=
  match typeNode.members? with
  | some record =>
    let kind := record.get "nodeType"
    if kind.isText "ArrayTypeName" then do
      let length ← arrayLength record
      let element ← childId record "baseType"
      return arrayShape length element
    else if kind.isText "Mapping" then do
      let keyType ← mappingKeyType record
      let value ← childId record "valueType"
      return .mapping keyType value
    else if kind.isText "UserDefinedTypeName" then do
      let target ← index.node (record.get "referencedDeclaration")
      if (target.get "nodeType").isText "StructDefinition" then
        return .struct (target.get "id")
      else return .elementary
    else .ok .elementary
  | none => .ok .elementary

end Index

/-- Whether a variable is fixed when it is compiled or deployed, and so occupies no storage. -/
def isConstant (node : Record) : Bool :=
  (match node.get "constant" with
    | .bool b => b
    | _ => false)
  || (node.get "mutability").isText "constant"
  || (node.get "mutability").isText "immutable"

/-- Whether a node declares a variable. -/
def isVariable (node : Json) : Bool :=
  node.members?.any fun record => (record.get "nodeType").isText "VariableDeclaration"

namespace Index

/-- A variable as a declaration. The type of one that occupies no storage is not looked at. -/
def declaration (index : Index) (node : Record) : Except Error Declaration := do
  let description ← node.orEmpty "typeDescriptions"
  let constant := isConstant node
  let shape ← if constant then pure .elementary else index.shape (node.get "typeName")
  return Declaration.withShape
    { label := node.getText "name"
      type := description.getText "typeIdentifier"
      typeName := description.getText "typeString"
      id := node.get "id"
      visibility := node.get "visibility"
      constant } shape

/-- The variables among nodes, in order. -/
def declarations (index : Index) (nodes : Json) : Except Error (List Declaration) := do
  let nodes ← nodes.elements
  (nodes.filter isVariable).mapM fun node => node.asRecord >>= index.declaration

/-- The ids of a contract and its bases, the most derived first. A contract that lists none stands
for itself. -/
def bases (contract : Record) : Except Error (List Json) :=
  let listed := contract.get "linearizedBaseContracts"
  if listed.isEmpty then return [← contract.member "id"] else listed.elements

/-- The variables of a contract and its bases, the most basic first. -/
def storage (index : Index) (fullName : String) : Except Error (List Declaration) :=
  match index.contracts.find? fullName with
  | none => .error (.contractMissing fullName)
  | some contract => do
    let bases ← bases contract
    let parts ← bases.reverse.mapM fun base => do
      let node ← index.node base
      index.declarations (node.getList "nodes")
    return parts.flatten

/-- The members of the struct with an id. -/
def members (index : Index) (id : Json) : Except Error (List Declaration) := do
  let node ← index.node id
  index.declarations (node.getList "members")

/-- The element or value type with an id, as a declaration without a name. -/
def element (index : Index) (id : Json) : Except Error Declaration := do
  let node ← index.node id
  let description ← node.orEmpty "typeDescriptions"
  let shape ← index.shape (.obj node)
  return Declaration.withShape
    { label := .str ""
      type := description.getText "typeIdentifier"
      typeName := description.getText "typeString"
      id } shape

end Index

end StorageLayout.Ast
