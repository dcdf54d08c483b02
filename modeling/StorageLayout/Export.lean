import StorageLayout.Slot
import StorageLayout.TypeReference

/-!
# Layouts as JSON

The form in which layouts are written to files.

A node becomes an object of the facts that are known, in a fixed order, and of its children under
`sub_type`. The export adds to every node with a slot the slot's word, as its last member.

## Main definitions

* `Facts.members`: The facts that are known.
* `TypeReference.toJson`: A node as an object.
* `exportForest`: A layout with the words of its slots.
-/

namespace StorageLayout

/-- The facts that are known, by name, in the order in which they are written. -/
def Facts.members (f : Facts) : Record :=
  [("name", f.name), ("type", f.type), ("type_name", f.typeName), ("id", f.id),
    ("visibility", f.visibility), ("slot", f.slot), ("offset", f.offset), ("length", f.length),
    ("key_type", f.keyType)].filter fun m => !m.2.isNull

namespace TypeReference

mutual

/-- A node as an object. -/
def toJson : TypeReference → Json
  | .node facts none => .obj facts.members
  | .node facts (some children) =>
    .obj (facts.members ++ [("sub_type", .arr (forestToJson children))])

/-- The nodes of a forest as objects. -/
def forestToJson : List TypeReference → List Json
  | [] => []
  | t :: rest => t.toJson :: forestToJson rest

end

end TypeReference

/-- The word of a node's slot, as a member; none when it has no slot. -/
def slotWord (facts : Facts) : Except Error Record :=
  if facts.slot.isNull then .ok []
  else do
    let word ← Slot.hexOfValue facts.slot
    return [("slot_hex", .str word)]

mutual

/-- A node with the words of its slot and of those below it. -/
def exportNode : TypeReference → Except Error Json
  | .node facts none => do
    let word ← slotWord facts
    return .obj (facts.members ++ word)
  | .node facts (some children) => do
    let word ← slotWord facts
    let children ← exportForest children
    return .obj (facts.members ++ [("sub_type", .arr children)] ++ word)

/-- A layout with the words of its slots. The first slot, parents before children, that has no word
makes the whole export fail. -/
def exportForest : List TypeReference → Except Error (List Json)
  | [] => .ok []
  | t :: rest => do
    let first ← exportNode t
    let others ← exportForest rest
    return first :: others

end

end StorageLayout
