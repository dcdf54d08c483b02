import StorageLayout.Emitted.Declarations
import StorageLayout.Proofs.Faults

/-!
# How an Emitted Layout Can Fail

The errors in which the layout of a contract with an emitted layout can end.

`Types` and `Check` say which tables can be read without fault, and in those nothing can go wrong
but the depth. Here nothing is asked of the table, and the question is which faults there are: an
entry or a type is not of the form that the reader takes for granted, or a type is named that the
table does not have. Every one of them comes from the entries and the types, none from the name of
the contract, because the contract is looked up once, before anything else is read.

## Main definitions

* `Index.Lacks`: The table has no type with a key.

## Theorems

* `ends_entry`, `ends_entries`, `ends_typeRecord`: The readers.
* `isSound_index`: What the resolver reads ends in no other errors.
* `layoutOf_ends_fault`: The errors of a layout.
-/

namespace StorageLayout.Emitted

namespace Index

/-- The table has no type with a key. -/
def Lacks (index : Index) (key : Json) : Prop :=
  ∃ k, key.key? = some k ∧ index.types.find? k = none

variable (index : Index)

theorem ends_entryMember (entry : Record) (name : String) :
    Ends (Fault index.Lacks) (fun _ => True) (entryMember entry name) := by
  unfold entryMember
  split
  · exact trivial
  · exact .form rfl

theorem ends_entryNumber (entry value : Json) :
    Ends (Fault index.Lacks) (fun _ => True) (entryNumber entry value) := by
  unfold entryNumber
  split
  · exact trivial
  · exact .form rfl
  · exact .form rfl

theorem ends_arrayLength (key : Json) (record : Record) :
    Ends (Fault index.Lacks) (fun _ => True) (arrayLength key record) := by
  refine Ends.bind (ends_asText (fun _ => .form) key) (fun keyText _ => ?_)
  split
  · exact ends_lengthOfDigits (fun _ => .form) _
  · refine Ends.bind (ends_asText (fun _ => .form) _) (fun label _ => ?_)
    split
    · exact ends_lengthOfDigits (fun _ => .form) _
    · exact .form rfl

theorem ends_shape (key : Json) (record : Record) :
    Ends (Fault index.Lacks) (fun _ => True) (shape key record) := by
  unfold shape
  simp only
  -- A key is looked up by `element` and `members` only, not for a shape.
  split
  · refine Ends.bind (ends_member (fun _ => .form) record "key") (fun keyType _ => ?_)
    exact Ends.bind (ends_member (fun _ => .form) record "value") (fun _ _ => trivial)
  · split
    · split
      · exact trivial
      · exact Ends.bind (index.ends_arrayLength key record) (fun _ _ => trivial)
    · split <;> exact trivial

theorem ends_typeRecord (key : Json) :
    Ends (Fault index.Lacks) (fun _ => True) (index.typeRecord key) := by
  refine Ends.bind (ends_asKey (fun _ => .form) key) (fun k hk => ?_)
  cases hfound : index.types.find? k with
  | some found => exact trivial
  | none => exact .unresolved ⟨k, hk, hfound⟩

/-- The record of a type that is an object. -/
theorem ends_typeObject (key : Json) :
    Ends (Fault index.Lacks) (fun _ => True) (index.typeRecord key >>= Json.asRecord) := by
  refine Ends.bind (index.ends_typeRecord key) (fun v _ => ?_)
  exact (ends_asRecord (fun _ => .form) v).imp (fun _ _ => trivial)

theorem ends_entry (value : Json) :
    Ends (Fault index.Lacks) (fun _ => True) (index.entry value) := by
  unfold entry
  split
  · rename_i fields _
    refine Ends.bind (index.ends_entryMember fields "type") (fun key _ => ?_)
    refine Ends.bind (index.ends_entryMember fields "label") (fun label _ => ?_)
    refine Ends.bind (Ends.bind (index.ends_entryMember fields "slot")
      (fun slot _ => index.ends_entryNumber value slot)) (fun slot _ => ?_)
    refine Ends.bind (index.ends_entryNumber value _) (fun offset _ => ?_)
    -- The one look-up of an entry is that of its type.
    refine Ends.bind (index.ends_typeObject key) (fun record _ => ?_)
    exact Ends.bind (index.ends_shape key record) (fun _ _ => trivial)
  · exact .form rfl

theorem ends_entries (list : Json) :
    Ends (Fault index.Lacks) (fun _ => True) (index.entries list) := by
  refine Ends.bind (ends_elements (fun _ => .form) list) (fun items _ => ?_)
  exact (Ends.mapM items (fun item _ => index.ends_entry item)).imp (fun _ _ => trivial)

/-- What the resolver reads ends in no other errors, whatever keys it goes on with. -/
theorem isSound_index : IsSound index.Lacks (fun _ => True) (.layout index) where
  members m _ := by
    refine Ends.bind (index.ends_typeObject m) (fun record _ => ?_)
    exact (index.ends_entries _).imp (fun _ _ _ _ => trivial)
  element _ key _ _ := by
    refine Ends.bind (index.ends_typeObject key) (fun record _ => ?_)
    exact Ends.bind (index.ends_shape key record) (fun _ _ => trivial)

/-- The errors of the layout of a contract that has an emitted one. -/
theorem layoutOf_ends_fault (fullName : String) (contract : Json) (layout : Record)
    (hcontract : index.contracts.find? fullName = some contract)
    (hlayout : contract.record? "storageLayout" = some layout) (limit : DepthLimit) :
    Ends (Fault index.Lacks) (fun _ => True) (layoutOf (.layout index) fullName limit) := by
  refine layoutOf_ends index.isSound_index fullName limit ?_
  change Ends _ _ (index.storage fullName)
  unfold storage
  -- Null has no members, so the contract is another value.
  cases contract with
  | obj members =>
      rw [hcontract]
      simp only [hlayout]
      split
      · exact fun _ _ => trivial
      · exact (index.ends_entries _).imp (fun _ _ _ _ => trivial)
  | _ => exact absurd hlayout (by simp only [Json.record?, Json.get?, Json.members?,
      Option.bind_none, reduceCtorEq, not_false_eq_true])

end Index

end StorageLayout.Emitted
