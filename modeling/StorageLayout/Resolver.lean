import StorageLayout.Source
import StorageLayout.TypeReference

/-!
# Resolving Types

From declarations to layout trees.

Every variable that occupies storage becomes a node, and its type is expanded below it: a struct
into its members, an array or a mapping into the shape of one element or value. An elementary
element has no shape to show. The members of an element that is a struct come directly below the
array or mapping; an element that is an array or a mapping itself becomes a single node without a
name of its own, labelled `[]` or by the type of the keys.

A type that occurs several times is expanded at each place. A struct can contain itself through
arrays or mappings, so that the expansion need not end: every list of nodes costs one of a budget
of levels, and the members of a struct or the element of an array are read before it is found
that no level is left for them.

## Main definitions

* `DepthLimit`: How deep types may be nested.
* `elementForest`: The shape of one element.
* `expand`: The nodes below a node.
* `resolve`: The nodes of declarations.
* `resolveAt`: The nodes of declarations that stand at a depth.
* `layoutOf`: The layout of a contract.
-/

namespace StorageLayout

/-- How deep types may be nested. The roots are at depth zero. -/
structure DepthLimit where
  /-- The limit in the words of whoever set it. -/
  written : Json
  /-- The deepest depth that it allows. -/
  deepest : Int

namespace DepthLimit

/-- A depth that no data reaches: where a limit is no bound at all. -/
def boundless : Int := Nat.pow 2 64

/-- The limit that a number sets. -/
def ofJson (v : Json) : Except Error DepthLimit :=
  match v with
  | .int n => .ok ⟨v, n⟩
  | .bool b => .ok ⟨v, if b then 1 else 0⟩
  | .real .nan => .ok ⟨v, boundless⟩
  | .real (.infinity negative) => .ok ⟨v, if negative then -1 else boundless⟩
  | .real .negativeZero => .ok ⟨v, 0⟩
  | .real (.finite r) => .ok ⟨v, r.floor⟩
  | _ => Defect.wrongKind.fail

/-- The limit of so many levels. -/
def ofNat (n : Nat) : DepthLimit := ⟨.int n, n⟩

/-- The limit in use when none is set. -/
def usual : DepthLimit := ofNat 64

/-- The levels that are left at a depth. -/
def budget (limit : DepthLimit) (depth : Int) : Nat := (limit.deepest + 1 - depth).toNat

/-- The levels that are left at a depth with a fraction. There the fraction of the limit counts too:
from one half on, a limit of one and a half leaves two levels and a limit of one leaves one. -/
def budgetFrom (limit : DepthLimit) (depth : Rat) : Nat :=
  match limit.written with
  | .real (.finite r) => ((r - depth).floor + 1).toNat
  | _ => (((limit.deepest : Rat) - depth).floor + 1).toNat

/-- The levels that are left at the depth that a number gives. Infinities and results that are no
number are at no depth: below all limits, or at the limit of their own kind. -/
def budgetAt (limit : DepthLimit) (depth : Json) : Except Error Nat :=
  match depth with
  | .int n => .ok (limit.budget n)
  | .bool b => .ok (limit.budget (if b then 1 else 0))
  | .real (.finite r) => .ok (limit.budgetFrom r)
  | .real .negativeZero => .ok (limit.budget 0)
  | .real .nan | .real (.infinity true) => .ok boundless.toNat
  | .real (.infinity false) => .ok (if limit.deepest = boundless then boundless.toNat else 0)
  | _ => Defect.wrongKind.fail

/-- Whether a layout may be made under the limit: it is a number from 1 to 128. A number with a
fraction is compared as it is, so that 128.5 is too great although 128 levels are not. -/
def inRange (limit : DepthLimit) : Bool :=
  match limit.written with
  | .real (.finite r) => 1 ≤ r && r ≤ 128
  | .real _ => false
  | _ => 1 ≤ limit.deepest && limit.deepest ≤ 128

end DepthLimit

/-- What a node says of its declaration; length and type of keys come with the shape. -/
def Declaration.facts (d : Declaration) : Facts :=
  { name := d.label
    type := d.type
    typeName := d.typeName
    id := d.id
    visibility := d.visibility
    slot := d.slot
    offset := d.offset }

/-- The label of the node for a value that is an array or a mapping. -/
def keyLabel (keyType : Json) : Except Error Json := do
  let key ← keyType.shown
  return .str s!"[{key}]"

/-- A type of keys that can be shown labels the node for a value. -/
theorem keyLabel_eq (keyType : Json) (h : keyType.isShowable = true) :
    keyLabel keyType = .ok (.str s!"[{keyType.display}]") := by
  simp only [keyLabel, Json.shown, h, if_true]
  rfl

/-- The shape of one element or value: nothing for an elementary type, the members of a struct, or a
single node with the given label. `resolve` makes the nodes of declarations. -/
def elementForest (source : Source)
    (resolve : List Declaration → Except Error (List TypeReference))
    (key label : Json) : Except Error (List TypeReference) := do
  let element ← source.element key
  match element.shape with
  | .elementary => return []
  | .struct members => source.members members >>= resolve
  | _ => resolve [{ element with label }]

/-- The node of a declaration. `resolve` makes the nodes of declarations one level down. -/
def expand (source : Source)
    (resolve : List Declaration → Except Error (List TypeReference))
    (d : Declaration) : Except Error TypeReference :=
  match d.shape with
  | .elementary => .ok (.node d.facts none)
  | .struct members => do
    let nodes ← source.members members >>= resolve
    return .node d.facts (some nodes)
  | .mapping keyType value => do
    let label ← keyLabel keyType
    let nodes ← elementForest source resolve value label
    return .node { d.facts with keyType } (some nodes)
  | .fixedArray length element => do
    let nodes ← elementForest source resolve element (.str "[]")
    return .node { d.facts with length } (some nodes)
  | .dynamicArray element => do
    let nodes ← elementForest source resolve element (.str "[]")
    return .node d.facts (some nodes)

/-- The nodes of the declarations that occupy storage, in order, within a budget of levels. `limit`
is what the budget came from. -/
def resolve (source : Source) (limit : Json) :
    (budget : Nat) → List Declaration → Except Error (List TypeReference)
  | 0, _ => .error (.nestedTooDeep limit)
  | budget + 1, ds => (ds.filter (!·.constant)).mapM (expand source (resolve source limit budget))

/-- The nodes of the declarations at a depth, under a limit on the depth. -/
def resolveAt (source : Source) (limit : DepthLimit) (depth : Int) (ds : List Declaration) :
    Except Error (List TypeReference) :=
  resolve source limit.written (limit.budget depth) ds

/-- The layout of a contract. -/
def layoutOf (source : Source) (fullName : String) (limit : DepthLimit) :
    Except Error (List TypeReference) :=
  if limit.inRange then do
    let declarations ← source.storage fullName
    resolveAt source limit 0 declarations
  else .error (.depthOutOfRange limit.written)

/-- The layout of a contract of an artifact. -/
def resolveLayout (artifact : Json) (name : String) (mode : Mode) (limit : DepthLimit) :
    Except Error (List TypeReference) := do
  let (source, fullName) ← Source.select artifact name mode
  layoutOf source fullName limit

end StorageLayout
