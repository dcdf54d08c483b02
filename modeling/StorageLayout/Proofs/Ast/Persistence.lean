import StorageLayout.Proofs.Ast.Inheritance
import StorageLayout.Proofs.Ast.Types
import StorageLayout.Proofs.TreeForm

/-!
# Persistent Variables

Which variables a layout lists, and which of them keep their values.

The variables of a contract are read from the lists of nodes of its bases, the most basic first, and
every node that declares a variable is read (`storage_lists`). Those that occupy no storage are left
out afterwards, and the others become one node each, in the same order. A node says of its variable
what the variable says of itself (`Tells`), so the nodes at the top of a layout can be told from the
tree alone: they are those of the variables that are neither constant nor immutable.

That is not the same as the variables that are persistent. A variable can also be transient: it is
neither constant nor immutable, but it is empty again after every transaction and has no place among
those that keep their values. The tree says so by the location of the variable, and no reader looks
at that. A transient variable is therefore listed among the persistent ones, and nothing in its node
tells them apart. So a layout lists exactly the persistent variables if the contract has no
transient variable, and never otherwise (`layoutOf_variables`).

## Main definitions

* `isTransient`, `persistent`: The variables that are empty after a transaction, and those that keep
  their values.
* `Tells`: What a node says of a variable.
* `ListsExactly`: A forest has one node for each variable, in order.

## Theorems

* `lists_unique`: A contract has one list of variables.
* `declaration_tells`: What is read from a variable.
* `storage_lists`: All variables of a contract are read.
* `length_persistent_iff`: When there is no transient variable to be left out.
* `layoutOf_variables`: The variables that a layout lists.
* `layoutOf_transient`: A layout with a variable that is not persistent.
-/

namespace StorageLayout

namespace Ast

/-- A variable that is empty again after every transaction. -/
def isTransient (v : Record) : Bool := (v.get "storageLocation").isText "transient"

/-- The variables that keep their values in storage. -/
def persistent (vs : List Record) : List Record :=
  vs.filter fun v => !isConstant v && !isTransient v

/-- What a node of a layout says of a variable: its name, id and visibility and the description of
its type are those of the variable, and no slot is known. -/
structure Tells (v : Record) (facts : Facts) : Prop where
  name : facts.name = v.getText "name"
  id : facts.id = v.get "id"
  visibility : facts.visibility = v.get "visibility"
  described : ∃ description, v.orEmpty "typeDescriptions" = .ok description ∧
    facts.type = Record.getText description "typeIdentifier" ∧
    facts.typeName = Record.getText description "typeString"
  slot : facts.slot = .null
  offset : facts.offset = .null

/-- The nodes at the top of a forest are those of variables, one for one and in order. -/
def ListsExactly (vs : List Record) (forest : List TypeReference) : Prop :=
  List.Forall₂ (fun v x => Tells v x.facts) vs forest

/-- The persistent variables are those that occupy storage, without the transient ones. -/
theorem persistent_eq_filter (vs : List Record) :
    persistent vs = (stored vs).filter fun v => !isTransient v := by
  rw [stored, List.filter_filter]
  refine List.filter_congr fun v _ => ?_
  rw [Bool.and_comm]

/-- No variable is left out for being transient if all transient variables are constant. The list
can be compared by its length, because nothing is ever added to it. -/
theorem length_persistent_iff (vs : List Record) :
    (persistent vs).length = (stored vs).length ↔
      ∀ v ∈ vs, isTransient v = true → isConstant v = true := by
  rw [persistent_eq_filter, List.length_filter_eq_length_iff]
  constructor
  · intro hall v hv htransient
    by_contra hconstant
    -- A transient variable that is no constant is stored, and would be missing among the persistent
    -- ones.
    have hstored : v ∈ stored vs := by
      refine List.mem_filter.mpr ⟨hv, ?_⟩
      rw [Bool.not_eq_true] at hconstant
      rw [hconstant]
      rfl
    have hnot := hall v hstored
    rw [htransient] at hnot
    exact absurd hnot Bool.false_ne_true
  · intro hall v hv
    rcases mem_stored v vs hv with ⟨hmem, hconstant⟩
    by_cases htransient : isTransient v = true
    · rw [hall v hmem htransient] at hconstant
      exact absurd hconstant.symm Bool.false_ne_true
    · rw [Bool.not_eq_true] at htransient
      rw [htransient]
      rfl

namespace Index

/-- A contract has one list of variables. -/
theorem lists_unique {index : Index} {fullName : String} {vs ws : List Record}
    (h : index.Lists fullName vs) (h' : index.Lists fullName ws) : vs = ws := by
  rcases h with ⟨contract, ids, parts, hcontract, hids, hvs, hparts⟩
  rcases h' with ⟨contract', ids', parts', hcontract', hids', hws, hparts'⟩
  rw [hcontract] at hcontract'
  injection hcontract' with hcontract'
  rw [← hcontract', hids] at hids'
  injection hids' with hids'
  rw [← hids'] at hparts'
  -- An id leads to one object, and that has one list of nodes.
  have hpart : Relator.RightUnique fun (id : Json) (part : List Record) =>
      ∃ node, index.node id = .ok node ∧ Declares (node.getList "nodes") part := by
    rintro id part part' ⟨node, hnode, hdeclares⟩ ⟨node', hnode', hdeclares'⟩
    rw [hnode] at hnode'
    injection hnode' with hnode'
    rw [← hnode'] at hdeclares'
    rw [hdeclares.eq_declaredIn, hdeclares'.eq_declaredIn]
  rw [hvs, hws, List.right_unique_forall₂' hpart hparts hparts']

variable (index : Index)

/-- A variable has been read, and what follows from it is what its node says. -/
theorem declaration_tells (v : Record) (d : Declaration) (h : index.declaration v = .ok d) :
    d.constant = isConstant v ∧ Tells v d.nodeFacts := by
  rcases index.declaration_eq_ok v d h with ⟨description, s, hdescription, heq⟩
  rw [heq]
  exact ⟨by simp only [Declaration.withShape_constant],
    { name := by simp only [Declaration.nodeFacts_name, Declaration.withShape_label]
      id := by simp only [Declaration.nodeFacts_id, Declaration.withShape_id]
      visibility := by
        simp only [Declaration.nodeFacts_visibility, Declaration.withShape_visibility]
      described := by
        refine ⟨description, hdescription, ?_, ?_⟩
        · simp only [Declaration.nodeFacts_type, Declaration.withShape_type]
        · simp only [Declaration.nodeFacts_typeName, Declaration.withShape_typeName]
      slot := by simp only [Declaration.nodeFacts_slot, Declaration.withShape_slot]
      offset := by simp only [Declaration.nodeFacts_offset, Declaration.withShape_offset] }⟩

/-- All variables in a list of nodes are read, in order. -/
theorem declarations_declares (list : Json) (ds : List Declaration)
    (h : index.declarations list = .ok ds) :
    ∃ vs, Declares list vs ∧ List.Forall₂ (fun v d => index.declaration v = .ok d) vs ds := by
  rcases (bind_eq_ok _ _ _).mp h with ⟨nodes, hnodes, h⟩
  rw [filter_isVariable, List.mapM_map] at h
  have hread := mapM_items index.declaration (variablesIn nodes) ds h
  refine ⟨variablesIn nodes, ⟨nodes, hnodes, rfl, fun v hv => ?_⟩, hread⟩
  rcases exists_partner _ _ hread v hv with ⟨d, _, hd⟩
  rcases (index.declaration_tells v d hd).2.described with ⟨description, hdescription, _⟩
  exact ⟨description, hdescription⟩

/-- All variables of a list of contracts are read, contract by contract. -/
theorem parts_declare (ids : List Json) (dss : List (List Declaration))
    (h : ids.mapM index.variablesOf = .ok dss) :
    ∃ parts, List.Forall₂ (fun id part => ∃ node, index.node id = .ok node ∧
        Declares (node.getList "nodes") part) ids parts ∧
      List.Forall₂ (fun v d => index.declaration v = .ok d) parts.flatten dss.flatten := by
  have hread := mapM_items index.variablesOf ids dss h
  clear h
  induction hread with
  | nil => exact ⟨[], .nil, .nil⟩
  | cons hbase _ ih =>
      rcases (bind_eq_ok _ _ _).mp hbase with ⟨node, hnode, hds⟩
      rcases index.declarations_declares _ _ hds with ⟨part, hpart, hvariables⟩
      rcases ih with ⟨parts, hrest, hflatten⟩
      exact ⟨part :: parts, .cons ⟨node, hnode, hpart⟩ hrest, List.rel_append hvariables hflatten⟩

/-- All variables of a contract and its bases are read, in order. -/
theorem storage_lists (fullName : String) (ds : List Declaration)
    (h : index.storage fullName = .ok ds) :
    ∃ vs, index.Lists fullName vs ∧
      List.Forall₂ (fun v d => index.declaration v = .ok d) vs ds := by
  cases hcontract : index.contracts.find? fullName with
  | none =>
      simp only [storage, hcontract] at h
      exact absurd h (by simp only [reduceCtorEq, not_false_eq_true])
  | some contract =>
      -- The bases are needed twice: as the ids that were read and as what the variables come from.
      have hsteps := h
      simp only [storage, hcontract] at hsteps
      rcases (bind_eq_ok _ _ _).mp hsteps with ⟨ids, hids, _⟩
      rw [index.storage_of_bases fullName contract hcontract ids hids] at h
      rcases (bind_eq_ok _ _ _).mp h with ⟨dss, hdss, h⟩
      injection h with h
      rcases index.parts_declare ids.reverse dss hdss with ⟨parts, hparts, hvariables⟩
      rw [h] at hvariables
      exact ⟨parts.flatten, ⟨contract, ids, parts, hcontract, hids, rfl, hparts⟩, hvariables⟩

end Index

end Ast

/-- The nodes at the top of a layout are those of the variables that stand in the contract and its
bases, from the most basic to the most derived one, without those that are constant or immutable.

Variables in transient storage are among them. So the layout lists exactly the persistent variables
if and only if there is no transient variable, but for constants. -/
theorem layoutOf_variables (index : Ast.Index) (fullName : String) (limit : DepthLimit)
    (forest : List TypeReference) (h : layoutOf (.ast index) fullName limit = .ok forest) :
    (∃ vs, index.Lists fullName vs) ∧
    ∀ vs, index.Lists fullName vs →
      Ast.ListsExactly (Ast.stored vs) forest ∧
      (Ast.ListsExactly (Ast.persistent vs) forest ↔
        ∀ v ∈ vs, Ast.isTransient v = true → Ast.isConstant v = true) := by
  rcases layoutOf_eq_ok h with ⟨ds, hds, hforest⟩
  rcases index.storage_lists fullName ds hds with ⟨vs, hlists, hread⟩
  rcases resolve_eq_ok _ _ _ ds forest hforest with ⟨b, _, hnodes⟩
  have hstored : List.Forall₂ (fun v d => index.declaration v = .ok d) (Ast.stored vs)
      (stored ds) :=
    Ast.stored_forall₂ vs ds (fun v d hvd => (index.declaration_tells v d hvd).1) hread
  -- From the variables to their declarations, and from those to the nodes.
  have hexactly : Ast.ListsExactly (Ast.stored vs) forest := by
    refine forall₂_comp (fun v d x hvd hx => ?_) _ _ _ hstored hnodes
    rw [(expand_eq_ok _ _ d x hx).1]
    exact (index.declaration_tells v d hvd).2
  refine ⟨⟨vs, hlists⟩, fun ws hws => ?_⟩
  rw [← Ast.Index.lists_unique hlists hws, ← Ast.length_persistent_iff]
  refine ⟨hexactly, fun hpersistent => ?_, fun hlength => ?_⟩
  · rw [hpersistent.length_eq, hexactly.length_eq]
  · -- Nothing is missing in the list of the persistent ones, so it is the whole list.
    have hsame : Ast.persistent vs = Ast.stored vs := by
      rw [Ast.persistent_eq_filter] at hlength ⊢
      exact List.filter_eq_self.mpr (List.length_filter_eq_length_iff.mp hlength)
    rw [hsame]
    exact hexactly

namespace Ast

/-- A state variable with its location. -/
def locatedVariable (id : Int) (name type location : String) : Record :=
  [("id", .int id), ("nodeType", .str "VariableDeclaration"), ("name", .str name),
    ("constant", .bool false), ("mutability", .str "mutable"), ("storageLocation", .str location),
    ("typeDescriptions", .obj [("typeIdentifier", .str type)])]

/-- The variables of a contract with a lock, which is in storage or somewhere else. -/
def guardedVariables (location : String) : List Record :=
  [locatedVariable 2 "locked" "t_bool" location, locatedVariable 4 "count" "t_uint256" "default"]

/-- The contract. -/
def guardedContract (location : String) : Record :=
  [("id", .int 1), ("nodeType", .str "ContractDefinition"), ("name", .str "Guarded"),
    ("linearizedBaseContracts", .arr [.int 1]),
    ("nodes", .arr ((guardedVariables location).map Json.obj))]

/-- Its tree. -/
def guardedTree (location : String) : Record :=
  [("id", .int 10), ("nodeType", .str "SourceUnit"),
    ("nodes", .arr [.obj (guardedContract location)])]

/-- Compiler output with this tree. -/
def guardedOutput (location : String) : Json :=
  .obj [("sources", .obj [("a.sol", .obj [("id", .int 0), ("ast", .obj (guardedTree location))])])]

/-- Its index. -/
def guardedIndex (location : String) : Index where
  nodes := Assoc.ofList
    [(.number 10, ⟨.int 10, guardedTree location⟩), (.number 1, ⟨.int 1, guardedContract location⟩),
      (.number 4, ⟨.int 4, locatedVariable 4 "count" "t_uint256" "default"⟩),
      (.number 2, ⟨.int 2, locatedVariable 2 "locked" "t_bool" location⟩)]
  contracts := Assoc.ofList [("a.sol:Guarded", guardedContract location)]

theorem ofOutput_guarded (location : String) :
    Index.ofOutput (guardedOutput location) = .ok (guardedIndex location) := by
  with_unfolding_all rfl

theorem guardedIndex_lists (location : String) :
    (guardedIndex location).Lists "a.sol:Guarded" (guardedVariables location) := by
  have hdeclares : Declares ((guardedContract location).getList "nodes")
      (guardedVariables location) := by
    refine ⟨_, rfl, rfl, ?_⟩
    exact List.forall_mem_cons.mpr ⟨⟨_, rfl⟩, List.forall_mem_singleton.mpr ⟨_, rfl⟩⟩
  exact ⟨_, [.int 1], [guardedVariables location], rfl, rfl, rfl,
    .cons ⟨_, rfl, hdeclares⟩ .nil⟩

/-- With the lock in storage, the layout lists the persistent variables. -/
theorem layoutOf_variables_guarded :
    ∃ locked count, layoutOf (.ast (guardedIndex "default")) "a.sol:Guarded" (.ofNat 64)
        = .ok [locked, count] ∧
      ListsExactly (persistent (guardedVariables "default")) [locked, count] := by
  have hlayout : ∃ locked count, layoutOf (.ast (guardedIndex "default")) "a.sol:Guarded"
      (.ofNat 64) = .ok [locked, count] := ⟨_, _, by with_unfolding_all rfl⟩
  rcases hlayout with ⟨locked, count, hlayout⟩
  have hlists := (layoutOf_variables (guardedIndex "default") "a.sol:Guarded" (.ofNat 64) _
    hlayout).2 _ (guardedIndex_lists "default")
  refine ⟨locked, count, hlayout, hlists.2.mpr ?_⟩
  decide

/-- With the lock in transient storage, the layout still lists it. -/
theorem layoutOf_transient :
    Index.ofOutput (guardedOutput "transient") = .ok (guardedIndex "transient") ∧
    (guardedIndex "transient").Lists "a.sol:Guarded" (guardedVariables "transient") ∧
    ∃ locked count, layoutOf (.ast (guardedIndex "transient")) "a.sol:Guarded" (.ofNat 64)
        = .ok [locked, count] ∧
      locked.facts.name = .str "locked" ∧
      ¬ ListsExactly (persistent (guardedVariables "transient")) [locked, count] := by
  have hlayout : ∃ locked count, layoutOf (.ast (guardedIndex "transient")) "a.sol:Guarded"
      (.ofNat 64) = .ok [locked, count] ∧ locked.facts.name = .str "locked" :=
    ⟨_, _, by with_unfolding_all rfl, rfl⟩
  rcases hlayout with ⟨locked, count, hlayout, hname⟩
  refine ⟨ofOutput_guarded "transient", guardedIndex_lists "transient", locked, count, hlayout,
    hname, fun hexactly => ?_⟩
  -- One variable is persistent, and there are two nodes.
  have hlength := hexactly.length_eq
  exact absurd hlength (show 1 ≠ 2 by decide)

end Ast

end StorageLayout
