import StorageLayout.Proofs.Ast.Nodes
import StorageLayout.Resolver

/-!
# Layouts of Derived Contracts

The layout of a contract begins with the layouts of the contracts that it is derived from.

A contract's list of bases begins with the contract itself and ends with the most basic one. It is
read from its end, so if the list of a derived contract ends with the whole list of a base, then the
variables of the base come first, in the order in which the base has them (`storage_append`). What
the derived contracts add comes after. Every variable is resolved on its own, whatever stands around
it (`resolve_append`), so the nodes of the base's variables are the same in both layouts, with all
that is below them.

An error in the base is therefore an error in the derived contract, too. It is the same one unless
the variables of the derived contract cannot all be read: those are read before any is resolved, so
that a variable of a derived contract can be complained about first.

The ids in the two lists need not be spelt alike, because `7` and `7.0` are one key.

## Main definitions

* `InheritsFrom`: The bases of a contract end with those of another one.
* `Index.variablesOf`: The variables that one contract of a list of bases declares.

## Theorems

* `resolve_append`: Declarations are resolved one by one.
* `node_congr`: Ids that are one key lead to one object.
* `bases_of_list`: The ids of the bases that a contract lists.
* `storage_append`: The variables of a base are the first ones of a derived contract.
* `layoutOf_extends`: The layout of a base is the first part of the layout of a derived contract.
-/

namespace StorageLayout

/-- Declarations are resolved one by one, and the nodes of the first ones come first. -/
theorem resolve_append (source : Source) (limit : Json) (budget : Nat)
    (ds es : List Declaration) :
    resolve source limit budget (ds ++ es) = do
      let first ← resolve source limit budget ds
      let rest ← resolve source limit budget es
      return first ++ rest := by
  cases budget with
  | zero => rfl
  | succ budget =>
      simp only [resolve, List.filter_append]
      exact List.mapM_append

namespace Ast

/-- A contract's list of bases ends with the whole list of another one, and what comes before it are
the contracts that are derived from that one. -/
def InheritsFrom (derived base : Record) : Prop :=
  ∃ own shared bases, derived.get "linearizedBaseContracts" = .arr (own ++ shared) ∧
    base.get "linearizedBaseContracts" = .arr bases ∧ bases ≠ [] ∧
    List.Forall₂ (fun x y => x.key? = y.key?) shared bases

namespace Index

/-- The ids of the bases that a contract lists. -/
theorem bases_of_list (contract : Record) (ids : List Json) (hids : ids ≠ [])
    (h : contract.get "linearizedBaseContracts" = .arr ids) : bases contract = .ok ids := by
  have hempty : (Json.arr ids).isEmpty = false := by
    cases ids with
    | nil => exact absurd rfl hids
    | cons id rest => rfl
  simp only [bases, h, hempty, Bool.false_eq_true, if_false]
  rfl

variable (index : Index)

/-- The variables that one contract of a list of bases declares. -/
def variablesOf (base : Json) : Except Error (List Declaration) := do
  let node ← index.node base
  index.declarations (node.getList "nodes")

/-- Ids that are one key lead to one object. -/
theorem node_congr (x y : Json) (hkey : x.key? = y.key?) (record : Record)
    (h : index.node x = .ok record) : index.node y = .ok record := by
  rcases index.node_eq_ok x record h with ⟨k, n, hk, hfound, hrecord⟩
  rw [← hrecord]
  exact index.node_of_found y k n (by rw [← hkey, hk]) hfound

/-- The variables of a contract that lists its bases, in two steps. -/
theorem storage_of_bases (fullName : String) (contract : Record)
    (hcontract : index.contracts.find? fullName = some contract) (ids : List Json)
    (hids : bases contract = .ok ids) :
    index.storage fullName = do
      let parts ← ids.reverse.mapM index.variablesOf
      return parts.flatten := by
  rw [storage, hcontract]
  simp only [hids]
  rfl

/-- Bases that are one key by one have the same variables. -/
theorem variables_congr (xs ys : List Json)
    (hkeys : List.Forall₂ (fun x y => x.key? = y.key?) xs ys) (parts : List (List Declaration))
    (h : xs.mapM index.variablesOf = .ok parts) : ys.mapM index.variablesOf = .ok parts := by
  -- The look-up goes by the key, so `1` and `1.0` lead to one node.
  have hsame : ∀ x y : Json, x.key? = y.key? →
      Tracks (fun _ => True) (fun _ _ => True) Eq (index.variablesOf x) (index.variablesOf y) := by
    intro x y hkey
    refine Tracks.of_ok fun ds hds => ?_
    rcases (bind_eq_ok _ _ _).mp hds with ⟨node, hnode, hdeclarations⟩
    refine ⟨ds, ?_, rfl⟩
    rw [variablesOf, index.node_congr x y hkey node hnode, ok_bind]
    exact hdeclarations
  rcases (Tracks.mapM hkeys hsame).ok h with ⟨parts', hparts', heq⟩
  rw [List.forall₂_eq_eq_eq] at heq
  rw [hparts', heq]

/-- The variables of a base are the first ones of a derived contract. -/
theorem storage_append (derivedName baseName : String) (derived base : Record)
    (hderived : index.contracts.find? derivedName = some derived)
    (hbase : index.contracts.find? baseName = some base) (h : InheritsFrom derived base)
    (ds : List Declaration) (hds : index.storage derivedName = .ok ds) :
    ∃ shared own, index.storage baseName = .ok shared ∧ ds = shared ++ own := by
  rcases h with ⟨ownIds, sharedIds, ids, hderivedIds, hbaseIds, hids, hkeys⟩
  have hall : ownIds ++ sharedIds ≠ [] := by
    intro hnil
    rw [(List.append_eq_nil_iff.mp hnil).2, List.forall₂_nil_left_iff] at hkeys
    exact hids hkeys
  rw [index.storage_of_bases derivedName derived hderived _
    (bases_of_list derived _ hall hderivedIds)] at hds
  rw [index.storage_of_bases baseName base hbase ids (bases_of_list base ids hids hbaseIds)]
  -- The lists are gone through from their ends, so the shared bases come first.
  rw [List.reverse_append, List.mapM_append] at hds
  rcases (bind_eq_ok _ _ _).mp hds with ⟨parts, hparts, hds⟩
  rcases (bind_eq_ok _ _ _).mp hparts with ⟨sharedParts, hshared, hparts⟩
  rcases (bind_eq_ok _ _ _).mp hparts with ⟨ownParts, _, hparts⟩
  cases hparts
  cases hds
  rw [index.variables_congr _ _ (List.rel_reverse hkeys) sharedParts hshared]
  exact ⟨sharedParts.flatten, ownParts.flatten, rfl, List.flatten_append⟩

end Index

end Ast

/-- The layout of a base is the first part of the layout of a derived contract, node for node.

If the derived contract has a layout, then so has the base, and the nodes of the base with all that
is below them are the first nodes of the derived contract. If the layout of the base ends in an
error, so does that of the derived contract, and in the same error if its variables can be read. -/
theorem layoutOf_extends (index : Ast.Index) (derivedName baseName : String)
    (derived base : Record) (hderived : index.contracts.find? derivedName = some derived)
    (hbase : index.contracts.find? baseName = some base) (h : Ast.InheritsFrom derived base)
    (limit : DepthLimit) :
    (∀ forest, layoutOf (.ast index) derivedName limit = .ok forest →
      ∃ shared, layoutOf (.ast index) baseName limit = .ok shared ∧ shared <+: forest) ∧
    (∀ e, layoutOf (.ast index) baseName limit = .error e →
      ∃ e', layoutOf (.ast index) derivedName limit = .error e' ∧
        (e' = e ∨ index.storage derivedName = .error e')) := by
  cases hlimit : limit.inRange with
  | false =>
      simp only [layoutOf, hlimit, Bool.false_eq_true, if_false]
      refine ⟨fun forest hforest => ?_, fun e he => ⟨e, he, Or.inl rfl⟩⟩
      cases hforest
  | true =>
      -- With the limit accepted only the list of variables depends on the contract.
      have hsteps : ∀ name, layoutOf (.ast index) name limit
          = index.storage name >>= resolveAt (.ast index) limit 0 := by
        intro name
        rw [layoutOf, if_pos hlimit]
        rfl
      rw [hsteps, hsteps]
      cases hds : index.storage derivedName with
      | error fault =>
          refine ⟨fun forest hforest => ?_, fun e _ => ⟨fault, rfl, Or.inr rfl⟩⟩
          cases hforest
      | ok ds =>
          rcases index.storage_append derivedName baseName derived base hderived hbase h ds hds with
            ⟨shared, own, hshared, hsplit⟩
          -- The variables of the base stand first, and a list is resolved from the left, each
          -- variable on its own.
          rw [hshared, hsplit, ok_bind, ok_bind, resolveAt, resolveAt, resolve_append]
          refine ⟨fun forest hforest => ?_, fun e he => ⟨e, ?_, Or.inl rfl⟩⟩
          · rcases (bind_eq_ok _ _ _).mp hforest with ⟨first, hfirst, hforest⟩
            rcases (bind_eq_ok _ _ _).mp hforest with ⟨rest, _, hforest⟩
            cases hforest
            exact ⟨first, hfirst, List.prefix_append first rest⟩
          · rw [he]
            rfl

/-- A variable in a syntax tree. -/
def variableNode (name : String) (typeName : Record) : Json :=
  .obj [("nodeType", .str "VariableDeclaration"), ("name", .str name), ("typeName", .obj typeName)]

/-- A contract with a variable that is a struct. -/
def accountContract : Record :=
  [("id", .int 1), ("linearizedBaseContracts", .arr [.int 1]),
    ("nodes", .arr [variableNode "owner" [("nodeType", .str "UserDefinedTypeName"),
      ("referencedDeclaration", .int 3)]])]

/-- A contract that is derived from it and has a variable of its own. The id of the base is written
as a number with a fraction here. -/
def savingsContract : Record :=
  [("id", .int 2), ("linearizedBaseContracts", .arr [.int 2, .real (.finite 1)]),
    ("nodes", .arr [variableNode "rate" []])]

/-- The index of their trees. -/
def accountIndex : Ast.Index where
  nodes := [
    (.number 1, ⟨.int 1, accountContract⟩),
    (.number 2, ⟨.int 2, savingsContract⟩),
    (.number 3, ⟨.int 3, [("id", .int 3), ("nodeType", .str "StructDefinition"),
      ("members", .arr [variableNode "name" []])]⟩)]
  contracts := [("a.sol:Account", accountContract), ("a.sol:Savings", savingsContract)]

/-- The layout of the derived contract begins with the struct of the base and its member. -/
theorem layoutOf_extends_account :
    Ast.InheritsFrom savingsContract accountContract ∧
    ∃ owner forest, layoutOf (.ast accountIndex) "a.sol:Account" (.ofNat 64) = .ok [owner] ∧
      layoutOf (.ast accountIndex) "a.sol:Savings" (.ofNat 64) = .ok forest ∧
      [owner] <+: forest ∧ owner.subType.map List.length = some 1 ∧ forest.length = 2 := by
  -- The derived contract lists the id of its base as `1.0`.
  have hextends : Ast.InheritsFrom savingsContract accountContract :=
    ⟨[.int 2], [.real (.finite 1)], [.int 1], rfl, rfl, List.cons_ne_nil _ _,
      .cons (by decide) .nil⟩
  have hbase : ∃ owner, layoutOf (.ast accountIndex) "a.sol:Account" (.ofNat 64) = .ok [owner] ∧
      owner.subType.map List.length = some 1 := ⟨_, by with_unfolding_all rfl, rfl⟩
  have hderived : ∃ forest, layoutOf (.ast accountIndex) "a.sol:Savings" (.ofNat 64) = .ok forest ∧
      forest.length = 2 := ⟨_, by with_unfolding_all rfl, rfl⟩
  rcases hbase with ⟨owner, howner, hbelow⟩
  rcases hderived with ⟨forest, hforest, hlength⟩
  rcases (layoutOf_extends accountIndex "a.sol:Savings" "a.sol:Account" savingsContract
    accountContract rfl rfl hextends (.ofNat 64)).1 forest hforest with ⟨shared, hshared, hfirst⟩
  rw [howner] at hshared
  cases hshared
  exact ⟨hextends, owner, forest, howner, hforest, hfirst, hbelow, hlength⟩

end StorageLayout
