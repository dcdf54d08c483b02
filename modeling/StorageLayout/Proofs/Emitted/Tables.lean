import StorageLayout.Emitted.Declarations
import StorageLayout.Proofs.Emitted.Contracts

/-!
# Type Tables of Compiler Output

The one table of types that is made of the tables of all contracts.

Every contract brings a table of its own. They are merged in the order in which contracts are
listed, and a key that occurs again takes the later record. So the table of the build is the map of
all pairs of keys and records, in document order, whatever each contract's table looks like: an
object, a list of pairs, or nothing. Under a key the build has the record of one of the contracts
that have the key (`find?_ofList_flatMap` says so for any such map), and where they all agree on it
the order plays no part.

A table can be malformed. That is a matter of the table alone, and not of what it is merged into
(`mergeTypes_isOk`), so a contract whose types were merged with those of a build can also be read
by itself.

## Main definitions

* `typesOf`: The types of a contract, with their keys.
* `ownTypes`: The table of a contract by itself.
* `recordsOf`: A table without the spelling of its keys.

## Theorems

* `mergeTypes_records`: What a contract adds to a table.
* `ofOutput_records`: The table of the build is the map of all types that are listed.
* `mergeTypes_isOk`: Whether a table can be merged depends on that table only.
* `typeRecord_congr`: A type is looked up by its key.
-/

namespace StorageLayout.Emitted

/-- A type that is given as a pair of a key and a record. -/
def pair? (pair : Json) : Option (Key × Json) :=
  match pair.elements with
  | .ok [key, record] => key.key?.map fun k => (k, record)
  | _ => none

/-- The types of a table, with their keys. -/
def pairsOf : Json → List (Key × Json)
  | .obj members => members.map fun m => (.text m.1, m.2)
  | .arr pairs => pairs.filterMap pair?
  | _ => []

/-- The types of a contract, with their keys: those of its layout, if it has one. -/
def typesOf (contract : Json) : List (Key × Json) :=
  match contract.record? "storageLayout" with
  | some layout => pairsOf (layout.get "types")
  | none => []

/-- The table of a contract by itself. -/
def ownTypes (contract : Json) : Assoc Key Json := Assoc.ofList (typesOf contract)

/-- A table without the spelling of its keys. -/
def recordsOf (types : Types) : Assoc Key Json := types.map fun p => (p.1, p.2.record)

/-- What a type that is changed has for a record. -/
theorem recordsOf_change (types : Types) (k : Key) (f : Option Entry → Entry) (record : Json)
    (hf : ∀ present, (f present).record = record) :
    recordsOf (types.change k f) = (recordsOf types).put k record := by
  induction types with
  | nil => simp [recordsOf, Assoc.change, Assoc.put, hf]
  | cons p rest ih =>
      rcases p with ⟨l, entry⟩
      by_cases hl : l = k
      · simp [recordsOf, Assoc.change, Assoc.put, hl, hf]
      · have hput : recordsOf (Assoc.change k f rest) = Assoc.put k record (recordsOf rest) := ih
        simp only [recordsOf, Assoc.put] at hput
        simp [recordsOf, Assoc.change, Assoc.put, hl, hput]

theorem find?_recordsOf (types : Types) (k : Key) :
    (recordsOf types).find? k = (types.find? k).map (·.record) := by
  induction types with
  | nil => rfl
  | cons p rest ih =>
      rcases p with ⟨l, entry⟩
      have hrest : Assoc.find? k (rest.map fun p => (p.1, p.2.record))
          = (Assoc.find? k rest).map (·.record) := ih
      by_cases hl : l = k
      · simp [recordsOf, Assoc.find?, hl]
      · simp [recordsOf, Assoc.find?, hl, hrest]

theorem enterType_records (types types' : Types) (key record : Json)
    (h : enterType types key record = .ok types') :
    ∃ k, key.key? = some k ∧ recordsOf types' = (recordsOf types).put k record := by
  rcases (bind_eq_ok _ _ _).mp h with ⟨k, hk, h⟩
  injection h with h
  rw [← h]
  exact ⟨k, (Json.asKey_eq_ok_iff key k).mp hk, recordsOf_change types k _ record fun _ => rfl⟩

theorem enterPair_records (types types' : Types) (pair : Json)
    (h : enterPair types pair = .ok types') :
    ∃ k record, pair? pair = some (k, record) ∧
      recordsOf types' = (recordsOf types).put k record := by
  rcases (bind_eq_ok _ _ _).mp h with ⟨items, hitems, h⟩
  -- Only a list of two items can be entered.
  rcases items with _ | ⟨key, _ | ⟨record, _ | ⟨_, _⟩⟩⟩
  · exact absurd h (by simp only [Defect.fail, reduceCtorEq, not_false_eq_true])
  · exact absurd h (by simp only [Defect.fail, reduceCtorEq, not_false_eq_true])
  · rcases enterType_records types types' key record h with ⟨k, hk, hrecords⟩
    refine ⟨k, record, ?_, hrecords⟩
    rw [pair?, hitems]
    simp only [hk, Option.map_some]
  · exact absurd h (by simp only [Defect.fail, reduceCtorEq, not_false_eq_true])

/-- What a table adds to another one. -/
theorem mergeTypes_records (types types' : Types) (table : Json)
    (h : mergeTypes types table = .ok types') :
    recordsOf types' = (pairsOf table).foldl (fun m p => m.put p.1 p.2) (recordsOf types) := by
  unfold mergeTypes at h
  cases hempty : table.isEmpty with
  | true =>
      rw [hempty, if_pos rfl] at h
      injection h with h
      rw [← h]
      -- What says nothing has no pairs.
      cases table with
      | obj members => rw [List.isEmpty_iff.mp hempty]; rfl
      | arr items => rw [List.isEmpty_iff.mp hempty]; rfl
      | _ => rfl
  | false =>
      rw [hempty, if_neg Bool.false_ne_true] at h
      cases table with
      | obj members =>
          rw [pairsOf, List.foldl_map]
          refine foldlM_part _ recordsOf _ members (fun t t' m _ hstep => ?_) types types' h
          rcases enterType_records t t' (.str m.1) m.2 hstep with ⟨k, hk, hrecords⟩
          injection hk with hk
          rw [hrecords, hk]
      | arr pairs =>
          rw [pairsOf, List.foldl_filterMap]
          refine foldlM_part _ recordsOf _ pairs (fun t t' pair _ hstep => ?_) types types' h
          rcases enterPair_records t t' pair hstep with ⟨k, record, hpair, hrecords⟩
          rw [hrecords, hpair]
      | str s => exact absurd h (by simp only [Defect.fail, reduceCtorEq, not_false_eq_true])
      | _ => exact absurd h (by simp only [Defect.fail, reduceCtorEq, not_false_eq_true])

/-- What a contract adds to the table of types. -/
theorem enterContract_records (source name : String) (contract : Json) (index index' : Index)
    (h : enterContract source index name contract = .ok index') :
    recordsOf index'.types
      = (typesOf contract).foldl (fun m p => m.put p.1 p.2) (recordsOf index.types) := by
  unfold enterContract at h
  unfold typesOf
  -- A contract without a layout adds no types.
  cases hlayout : contract.record? "storageLayout" with
  | none =>
      rw [hlayout] at h
      injection h with h
      rw [← h]
      rfl
  | some layout =>
      rw [hlayout] at h
      rcases (bind_eq_ok _ _ _).mp h with ⟨types, htypes, h⟩
      injection h with h
      rw [← h]
      exact mergeTypes_records index.types types _ htypes

/-- What the contracts of a source add to the table of types. -/
theorem enterSource_records (index index' : Index) (source : String) (named : Json)
    (h : enterSource index source named = .ok index') :
    recordsOf index'.types = ((listedIn source named).flatMap fun c => typesOf c.2).foldl
      (fun m p => m.put p.1 p.2) (recordsOf index.types) := by
  cases named with
  | obj contracts =>
      rw [List.foldl_flatMap, listedIn, List.foldl_map]
      exact foldlM_part _ (fun i : Index => recordsOf i.types) _ contracts
        (fun i i' c _ hstep => enterContract_records source c.1 c.2 i i' hstep) index index' h
  | _ => exact absurd h (by simp only [enterSource, reduceCtorEq, not_false_eq_true])

/-- The table of the build is the map of all types that are listed. -/
theorem ofOutput_records (output : Json) (units : Record) (index : Index)
    (hunits : output.record? "contracts" = some units) (h : Index.ofOutput output = .ok index) :
    recordsOf index.types
      = Assoc.ofList ((listedContracts units).flatMap fun c => typesOf c.2) := by
  rw [Index.ofOutput, hunits] at h
  have hfold := foldlM_part _ (fun i : Index => recordsOf i.types)
    (fun m (u : String × Json) => ((listedIn u.1 u.2).flatMap fun c => typesOf c.2).foldl
      (fun m p => m.put p.1 p.2) m) units
    (fun i i' u _ hstep => enterSource_records i i' u.1 u.2 hstep) ⟨[], []⟩ index h
  rw [hfold, Assoc.ofList, listedContracts, List.flatMap_assoc, List.foldl_flatMap]
  rfl

/-- Whether a type can be entered does not depend on the table. -/
theorem enterType_isOk (types types' : Types) (key record : Json) :
    Tracks (fun _ => False) Eq (fun _ _ => True) (enterType types key record)
      (enterType types' key record) :=
  Tracks.bind_self (fun _ => rfl) key.asKey (fun _ => trivial)

/-- Whether a table can be merged depends on that table only. -/
theorem mergeTypes_isOk (types types' : Types) (table : Json) :
    Tracks (fun _ => False) Eq (fun _ _ => True) (mergeTypes types table)
      (mergeTypes types' table) := by
  unfold mergeTypes
  split
  · exact trivial
  · -- Whether an entry is accepted does not depend on what the table holds already.
    cases table with
    | obj members =>
        refine Tracks.foldlM (List.forall₂_refl members) (fun t t' m m' _ (hm : m = m') => ?_) types
          types' trivial
        rw [← hm]
        exact enterType_isOk t t' (.str m.1) m.2
    | arr pairs =>
        refine Tracks.foldlM (List.forall₂_refl pairs)
          (fun t t' pair pair' _ (hpair : pair = pair') => ?_) types types' trivial
        rw [← hpair]
        refine Tracks.bind_self (fun _ => rfl) pair.elements (fun items => ?_)
        rcases items with _ | ⟨key, _ | ⟨record, _ | ⟨_, _⟩⟩⟩
        · exact Or.inr rfl
        · exact Or.inr rfl
        · exact enterType_isOk t t' key record
        · exact Or.inr rfl
    | _ => exact Or.inr rfl

namespace Index

/-- A type is looked up by its key, and nothing but its record is taken from the table. -/
theorem typeRecord_congr (index index' : Index) (key : Json)
    (h : ∀ k, key.key? = some k →
      (recordsOf index.types).find? k = (recordsOf index'.types).find? k) :
    index.typeRecord key = index'.typeRecord key := by
  unfold typeRecord
  cases hk : key.key? with
  | none => simp only [Json.asKey, hk, Defect.fail, bind, Except.bind]
  | some k =>
      have hfind := h k hk
      rw [find?_recordsOf, find?_recordsOf] at hfind
      simp only [Json.asKey, hk, bind, Except.bind]
      -- Only the records matter here, not which contract they came from.
      cases hfound : index.types.find? k with
      | none =>
          rw [hfound, Option.map_none] at hfind
          rw [Option.map_eq_none_iff.mp hfind.symm]
      | some entry =>
          rw [hfound, Option.map_some] at hfind
          rcases Option.map_eq_some_iff.mp hfind.symm with ⟨entry', hfound', hrecord⟩
          rw [hfound']
          simp only [hrecord]

end Index

end StorageLayout.Emitted
