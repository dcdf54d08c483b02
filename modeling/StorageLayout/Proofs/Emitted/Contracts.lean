import StorageLayout.Emitted.Index
import StorageLayout.Proofs.Lookup

/-!
# Contracts of Compiler Output

The table of contracts is the list of all contracts of the build, by their qualified names.

The index is made contract by contract, each adding its types as well, and it exists only if all
tables of types can be merged. But the contracts are entered whatever their layouts look like, so
the table of contracts can be told without the types: the contracts are listed in document order,
and a name that occurs again takes the later record.

## Main definitions

* `listedContracts`: All contracts with their qualified names.
* `contractOf`: The record of a contract.

## Theorems

* `ofOutput_contracts`: The table of contracts is the map of those listed.
-/

namespace StorageLayout.Emitted

/-- The contracts of one source with their qualified names. -/
def listedIn (source : String) (named : Json) : List (String × Json) :=
  match named with
  | .obj contracts => contracts.map fun c => (s!"{source}:{c.1}", c.2)
  | _ => []

/-- All contracts of a build with their qualified names, in document order. -/
def listedContracts (units : Record) : List (String × Json) :=
  units.flatMap fun unit => listedIn unit.1 unit.2

/-- The record of a contract: the last one that is listed under the name. -/
def contractOf (units : Record) (fullName : String) : Option Json :=
  (Assoc.ofList (listedContracts units)).find? fullName

/-- A contract is put into the table, whatever comes of its types. -/
theorem enterContract_contracts (source name : String) (contract : Json) (index index' : Index)
    (h : enterContract source index name contract = .ok index') :
    index'.contracts = index.contracts.put s!"{source}:{name}" contract := by
  unfold enterContract at h
  -- With a layout or without one the contract is listed, and its types go to the other table.
  cases hlayout : contract.record? "storageLayout" with
  | none =>
      rw [hlayout] at h
      injection h with h
      rw [← h]
  | some layout =>
      rw [hlayout] at h
      rcases (bind_eq_ok _ _ _).mp h with ⟨types, _, h⟩
      injection h with h
      rw [← h]

/-- The contracts of a source are put into the table in order. -/
theorem enterSource_contracts (index index' : Index) (source : String) (named : Json)
    (h : enterSource index source named = .ok index') :
    index'.contracts
      = (listedIn source named).foldl (fun m p => m.put p.1 p.2) index.contracts := by
  cases named with
  | obj contracts =>
      -- The types that a contract adds are another part of the index.
      rw [listedIn, List.foldl_map]
      exact foldlM_part _ Index.contracts _ contracts
        (fun i i' c _ hstep => enterContract_contracts source c.1 c.2 i i' hstep) index index' h
  | _ => exact absurd h (by simp only [enterSource, reduceCtorEq, not_false_eq_true])

/-- The table of contracts is the map of those listed. -/
theorem ofOutput_contracts (output : Json) (units : Record) (index : Index)
    (hunits : output.record? "contracts" = some units) (h : Index.ofOutput output = .ok index) :
    index.contracts = Assoc.ofList (listedContracts units) := by
  rw [Index.ofOutput, hunits] at h
  have hfold := foldlM_part _ Index.contracts
    (fun m (u : String × Json) => (listedIn u.1 u.2).foldl (fun m p => m.put p.1 p.2) m) units
    (fun i i' u _ hstep => enterSource_contracts i i' u.1 u.2 hstep) ⟨[], []⟩ index h
  rw [hfold, Assoc.ofList, listedContracts, List.foldl_flatMap]

end StorageLayout.Emitted
