import StorageLayout.Json.Basic

/-!
# Layout Trees

The answer: a forest with a node for every variable, and below it the nodes of its type.

A node carries what is known of the variable. Its children are absent for an elementary type;
for any other they are a list, which is empty when the element of an array or the value of a
mapping is elementary.

## Main definitions

* `Facts`: What a node says about itself.
* `TypeReference`: A node with its children.
* `TypeReference.same`: Whether two forests are equal as data.
-/

namespace StorageLayout

/-- What a node of a layout says about itself; a fact that is not known is null. -/
structure Facts where
  name : Json
  type : Json
  typeName : Json
  id : Json := .null
  visibility : Json := .null
  slot : Json := .null
  offset : Json := .null
  length : Json := .null
  keyType : Json := .null
deriving Inhabited

/-- A node of a layout, with the nodes below it. -/
inductive TypeReference where
  | node (facts : Facts) (subType : Option (List TypeReference))
deriving Inhabited

namespace TypeReference

/-- What a node says about itself. -/
def facts : TypeReference → Facts
  | .node facts _ => facts

/-- The nodes below a node. -/
def subType : TypeReference → Option (List TypeReference)
  | .node _ subType => subType

end TypeReference

/-- Whether two nodes say the same, as data. -/
def Facts.same (a b : Facts) : Bool :=
  a.name.same b.name && a.type.same b.type && a.typeName.same b.typeName && a.id.same b.id
    && a.visibility.same b.visibility && a.slot.same b.slot && a.offset.same b.offset
    && a.length.same b.length && a.keyType.same b.keyType

namespace TypeReference

mutual

/-- Whether two nodes and all below them are equal as data. -/
def same : TypeReference → TypeReference → Bool
  | .node a none, .node b none => a.same b
  | .node a (some xs), .node b (some ys) => a.same b && sameForest xs ys
  | .node _ none, .node _ (some _) => false
  | .node _ (some _), .node _ none => false

/-- Whether two forests are equal as data. -/
def sameForest : List TypeReference → List TypeReference → Bool
  | [], [] => true
  | x :: xs, y :: ys => x.same y && sameForest xs ys
  | _, _ => false

end

end TypeReference

end StorageLayout
