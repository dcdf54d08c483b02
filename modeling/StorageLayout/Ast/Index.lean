import StorageLayout.Json.Reading

/-!
# The Index of Syntax Trees

A table of all nodes of a build's syntax trees, by their ids.

Trees refer to their nodes by id across sources, so before anything is looked up all trees are
walked and every object that carries an id is entered. The walk keeps a stack: an object is
entered when it is taken off, and what it holds is put on in order, so the last child is visited
first. An id that is met again keeps its place and its first spelling but gets the later object.

The walk starts at the tree of each source and not at the entry around it, which has an id of
another numbering.

## Main definitions

* `Node`: An object of a tree and the id it was first entered under.
* `walk`: Enters everything that a stack of values holds.
* `Index`: The nodes and the contracts of a build.
* `Index.ofOutput`: The index of compiler output.
-/

namespace StorageLayout.Ast

/-- An object that carries an id. -/
structure Node where
  /-- The id as it was spelt where it first occurred. -/
  id : Json
  record : Record
deriving Inhabited

/-- Nodes by id. -/
abbrev Nodes := Assoc Key Node

/-- Enters an object, if it carries an id. -/
def enter (record : Record) (nodes : Nodes) : Except Error Nodes :=
  match record.find? "id" with
  | none => .ok nodes
  | some id => do
    let key ← id.asKey
    return nodes.change key fun present => ⟨(present.map (·.id)).getD id, record⟩

/-- The values directly inside an object or a list. -/
def children : Json → List Json
  | .obj members => members.map (·.2)
  | .arr items => items
  | _ => []

mutual

/-- The number of values in a value, itself included. -/
def weight : Json → Nat
  | .arr items => weightItems items + 1
  | .obj members => weightMembers members + 1
  | _ => 1

/-- The number of values in a list of values. -/
def weightItems : List Json → Nat
  | [] => 0
  | v :: rest => weight v + weightItems rest

/-- The number of values in the members of an object. -/
def weightMembers : List (String × Json) → Nat
  | [] => 0
  | (_, v) :: rest => weight v + weightMembers rest

end

theorem weightItems_append (xs ys : List Json) :
    weightItems (xs ++ ys) = weightItems xs + weightItems ys := by
  induction xs with
  | nil => simp [weightItems]
  | cons x rest ih => simp [weightItems, ih, Nat.add_assoc]

theorem weightItems_reverse (xs : List Json) : weightItems xs.reverse = weightItems xs := by
  induction xs with
  | nil => rfl
  | cons x rest ih => simp [weightItems, weightItems_append, ih, Nat.add_comm]

theorem weightMembers_eq (members : List (String × Json)) :
    weightMembers members = weightItems (members.map (·.2)) := by
  induction members with
  | nil => rfl
  | cons m rest ih => simp [weightMembers, weightItems, ih]

/-- A value weighs more than what is inside it. -/
theorem weightItems_children_lt (v : Json) : weightItems (children v) < weight v := by
  cases v <;> simp [children, weight, weightItems, weightMembers_eq]

/-- Enters everything that a stack holds, from its top on. What is inside a value goes on top of the
stack, the last child uppermost. -/
def walk : (stack : List Json) → Nodes → Except Error Nodes
  | [], nodes => .ok nodes
  | v :: stack, nodes => do
    let nodes ← match v.members? with
      | some record => enter record nodes
      | none => pure nodes
    walk ((children v).reverse ++ stack) nodes
termination_by stack => weightItems stack
decreasing_by
  have := weightItems_children_lt v
  simp only [weightItems_append, weightItems_reverse, weightItems]
  omega

/-- The nodes and the contracts of a build. -/
structure Index where
  nodes : Nodes
  /-- The contract definitions at the top of each tree, by path and name. -/
  contracts : Assoc String Record

/-- Enters a top-level node of a tree, if it defines a contract. -/
def enterContract (path : String) (contracts : Assoc String Record) (node : Json) :
    Except Error (Assoc String Record) :=
  match node.members? with
  | some record =>
    if (record.get "nodeType").isText "ContractDefinition" then do
      let name ← record.member "name"
      let shown ← name.shown
      return contracts.put s!"{path}:{shown}" record
    else .ok contracts
  | none => .ok contracts

/-- Enters the tree of one source. -/
def enterSource (index : Index) (path : String) (unit : Json) : Except Error Index :=
  match unit.record? "ast" with
  | none => .error (.noAst path)
  | some ast => do
    let nodes ← walk [.obj ast] index.nodes
    let top ← (ast.getList "nodes").elements
    let contracts ← top.foldlM (enterContract path) index.contracts
    return ⟨nodes, contracts⟩

/-- The index of compiler output. -/
def Index.ofOutput (output : Json) : Except Error Index :=
  match output.record? "sources" with
  | none => .error .noSources
  | some sources => sources.foldlM (fun index s => enterSource index s.1 s.2) ⟨[], []⟩

end StorageLayout.Ast
