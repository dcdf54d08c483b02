import StorageLayout.Emitted.Declarations
import StorageLayout.Proofs.Declaration
import StorageLayout.Proofs.Lookup

/-!
# Reading Emitted Layouts

What a reader has found when it has succeeded, whatever the table looks like.

`Types` says which tables can be read without fault. Here nothing is asked of the table: a reader
that has returned a declaration has found a record and a shape on its way, and all that the
declaration says comes from the entry and from that record. In particular the shape depends on the
key and its record only, so that an entry and an element of one type have one shape.

A key can be of any kind that serves as a key, and two values can be one key. Then they lead to one
record, but to declarations with different values for the type.

## Main definitions

* `EntryRead`, `ElementRead`: A declaration with what it was made of.
* `entryTypes`, `namedTypes`: The types that a list of entries names, and those that a record names.
* `HasTypeShape`: A declaration has the shape of its type.

## Theorems

* `entryNumber_eq_ok`: A number that has been read.
* `entryRead`, `elementRead`: A reader that has succeeded has made its declaration of these parts.
* `entries_eq_ok`, `members_eq_ok`, `storage_eq_ok`: Lists of entries, one declaration for each.
* `typeRecord_eq_ok`: The record of a type is found under its key.
* `EntryRead.hasTypeShape`, `ElementRead.hasTypeShape`: The shape is that of the type.
* `shape_keys_subset`: A shape refers to types that its record names, or to its own.
-/

namespace StorageLayout.Emitted

/-- The entries in a list; none, if it cannot be gone through. -/
def entriesIn (list : Json) : List Json := list.elements.toOption.getD []

/-- The types that the entries of a list name. -/
def entryTypes (list : Json) : List Json := (entriesIn list).filterMap (·.get? "type")

/-- The types that the record of a type names: its base, its value and those of its members. -/
def namedTypes (record : Record) : List Json :=
  (record.find? "base").toList ++ (record.find? "value").toList
    ++ entryTypes (record.getList "members")

theorem mem_entryTypes (list item key : Json) (items : List Json)
    (hitems : list.elements = .ok items) (hitem : item ∈ items)
    (hkey : item.get? "type" = some key) :
    key ∈ entryTypes list := by
  rw [entryTypes, entriesIn, hitems]
  exact List.mem_filterMap.mpr ⟨item, hitem, hkey⟩

/-- A shape refers to types that its record names, or to its own. -/
theorem shape_keys_subset (key : Json) (record : Record) (s : Shape)
    (h : shape key record = .ok s) : s.keys ⊆ key :: namedTypes record := by
  unfold shape at h
  simp only at h
  split at h
  · rcases (bind_eq_ok _ _ _).mp h with ⟨keyType, _, h⟩
    rcases (bind_eq_ok _ _ _).mp h with ⟨value, hvalue, h⟩
    injection h with h
    have hfound := record.member_eq_ok "value" value hvalue
    intro other hother
    rw [← h, Shape.keys, List.mem_singleton] at hother
    simp only [namedTypes, hfound, hother, Option.toList_some, List.mem_cons, List.mem_append,
      true_or, or_true]
  · cases hbase : record.find? "base" with
    | some base =>
        rw [hbase] at h
        simp only at h
        -- Both kinds of array refer to the base.
        have hkeys : s.keys = [base] := by
          split at h
          · injection h with h
            rw [← h, Shape.keys]
          · rcases (bind_eq_ok _ _ _).mp h with ⟨length, _, h⟩
            injection h with h
            rw [← h, Shape.keys]
        intro other hother
        rw [hkeys, List.mem_singleton] at hother
        simp only [namedTypes, hbase, hother, Option.toList_some, List.mem_cons, List.mem_append,
          true_or, or_true]
    | none =>
        rw [hbase] at h
        simp only at h
        split at h
        · injection h with h
          rw [← h]
          exact List.cons_subset_cons key (List.nil_subset _)
        · injection h with h
          rw [← h]
          exact List.nil_subset _

/-- A number that has been read is the whole number that its value gives. -/
theorem entryNumber_eq_ok (entry value : Json) (n : Int) (h : entryNumber entry value = .ok n) :
    wholeNumber value = .ok n := by
  unfold entryNumber at h
  cases hvalue : wholeNumber value with
  | ok m =>
      rw [hvalue] at h
      injection h with h
      rw [h]
  | error fault =>
      rw [hvalue] at h
      -- A fault is only put in other words on the way out.
      cases fault <;>
        exact absurd h (by simp only [Defect.fail, reduceCtorEq, not_false_eq_true])

/-- A member of an entry that has been read is there. -/
theorem entryMember_eq_ok (entry : Record) (name : String) (v : Json)
    (h : entryMember entry name = .ok v) : entry.find? name = some v := by
  unfold entryMember at h
  cases hfind : entry.find? name with
  | none =>
      rw [hfind] at h
      exact absurd h (by simp only [reduceCtorEq, not_false_eq_true])
  | some w =>
      rw [hfind] at h
      injection h with h
      rw [h]

namespace Index

variable (index : Index)

/-- An entry has been read to a declaration of the type that it names. -/
inductive EntryRead : Json → Declaration → Prop
  | read {fields : Record} {key label slotValue : Json} {slot offset : Int} {record : Record}
      {s : Shape} (hkey : fields.find? "type" = some key)
      (hlabel : fields.find? "label" = some label)
      (hslotValue : fields.find? "slot" = some slotValue)
      (hslot : wholeNumber slotValue = .ok slot)
      (hoffset : wholeNumber ((fields.find? "offset").getD (.int 0)) = .ok offset)
      (hrecord : index.typeRecord key = .ok (.obj record)) (hshape : shape key record = .ok s) :
      EntryRead (.obj fields) (Declaration.withShape
        { label, type := key, typeName := typeName key record, id := fields.get "astId",
          slot := .int slot, offset := .int offset } s)

/-- A key has been read to a declaration of its type, without a name. -/
inductive ElementRead : Json → Declaration → Prop
  | read {key : Json} {record : Record} {s : Shape}
      (hrecord : index.typeRecord key = .ok (.obj record)) (hshape : shape key record = .ok s) :
      ElementRead key (Declaration.withShape
        { label := .str "", type := key, typeName := typeName key record } s)

/-- The record of a type is found under its key. -/
theorem typeRecord_eq_ok (key record : Json) (h : index.typeRecord key = .ok record) :
    ∃ k, key.key? = some k ∧ (index.types.find? k).map (·.record) = some record := by
  rcases (bind_eq_ok _ _ _).mp h with ⟨k, hk, h⟩
  refine ⟨k, (Json.asKey_eq_ok_iff key k).mp hk, ?_⟩
  -- A key that is missing has an error, so the record is that of an entry.
  cases hfound : index.types.find? k with
  | none =>
      rw [hfound] at h
      exact absurd h (by simp only [throw, throwThe, MonadExceptOf.throw, reduceCtorEq,
        not_false_eq_true])
  | some found =>
      rw [hfound] at h
      injection h with h
      rw [Option.map_some, h]

/-- The record of a type that is an object. -/
theorem typeObject_eq_ok (key : Json) (record : Record)
    (h : (index.typeRecord key >>= Json.asRecord) = .ok record) :
    index.typeRecord key = .ok (.obj record) := by
  rcases (bind_eq_ok _ _ _).mp h with ⟨v, hv, h⟩
  rw [hv, v.asRecord_eq_ok record h]

theorem entryRead (value : Json) (d : Declaration) (h : index.entry value = .ok d) :
    index.EntryRead value d := by
  unfold entry at h
  cases value with
  | obj fields =>
      -- The members are read one after the other, and each of the steps is a premise of `read`.
      rcases (bind_eq_ok _ _ _).mp h with ⟨key, hkey, h⟩
      rcases (bind_eq_ok _ _ _).mp h with ⟨label, hlabel, h⟩
      rcases (bind_eq_ok _ _ _).mp h with ⟨slot, hslot, h⟩
      rcases (bind_eq_ok _ _ _).mp hslot with ⟨slotValue, hslotValue, hslot⟩
      rcases (bind_eq_ok _ _ _).mp h with ⟨offset, hoffset, h⟩
      rcases (bind_eq_ok _ _ _).mp h with ⟨record, hrecord, h⟩
      rcases (bind_eq_ok _ _ _).mp h with ⟨s, hshape, h⟩
      injection h with h
      rw [← h]
      exact .read (entryMember_eq_ok fields "type" key hkey)
        (entryMember_eq_ok fields "label" label hlabel)
        (entryMember_eq_ok fields "slot" slotValue hslotValue)
        (entryNumber_eq_ok _ slotValue slot hslot) (entryNumber_eq_ok _ _ offset hoffset)
        (index.typeObject_eq_ok key record hrecord) hshape
  | _ => exact absurd h (by simp only [Json.members?, reduceCtorEq, not_false_eq_true])

theorem elementRead (key : Json) (d : Declaration) (h : index.element key = .ok d) :
    index.ElementRead key d := by
  rcases (bind_eq_ok _ _ _).mp h with ⟨record, hrecord, h⟩
  rcases (bind_eq_ok _ _ _).mp h with ⟨s, hshape, h⟩
  injection h with h
  rw [← h]
  exact .read (index.typeObject_eq_ok key record hrecord) hshape

/-- A list of entries that has been read has one declaration for each. -/
theorem entries_eq_ok (list : Json) (ds : List Declaration) (h : index.entries list = .ok ds) :
    List.Forall₂ (fun item d => index.entry item = .ok d) (entriesIn list) ds := by
  rcases (bind_eq_ok _ _ _).mp h with ⟨items, hitems, h⟩
  rw [entriesIn, hitems]
  exact mapM_items index.entry items ds h

/-- The members of a struct are read from its record. -/
theorem members_eq_ok (key : Json) (ds : List Declaration) (h : index.members key = .ok ds) :
    ∃ record : Record, index.typeRecord key = .ok (.obj record) ∧
      List.Forall₂ (fun item d => index.entry item = .ok d)
        (entriesIn (record.getList "members")) ds := by
  rcases (bind_eq_ok _ _ _).mp h with ⟨record, hrecord, h⟩
  exact ⟨record, index.typeObject_eq_ok key record hrecord, index.entries_eq_ok _ ds h⟩

/-- The variables of a contract are read from its layout. -/
theorem storage_eq_ok (fullName : String) (ds : List Declaration)
    (h : index.storage fullName = .ok ds) :
    ∃ (contract : Json) (layout : Record), index.contracts.find? fullName = some contract ∧
      contract.record? "storageLayout" = some layout ∧
      List.Forall₂ (fun item d => index.entry item = .ok d)
        (entriesIn (layout.get "storage")) ds := by
  unfold storage at h
  split at h
  · exact absurd h (by simp only [reduceCtorEq, not_false_eq_true])
  · exact absurd h (by simp only [reduceCtorEq, not_false_eq_true])
  · rename_i contract _ hcontract
    cases hlayout : contract.record? "storageLayout" with
    | none =>
        rw [hlayout] at h
        exact absurd h (by simp only [reduceCtorEq, not_false_eq_true])
    | some layout =>
        rw [hlayout] at h
        simp only at h
        refine ⟨contract, layout, hcontract, hlayout, ?_⟩
        split at h
        · -- A list that says nothing has no entries.
          rename_i hempty
          injection h with h
          rw [← h]
          have hnone : entriesIn (layout.get "storage") = [] := by
            generalize layout.get "storage" = list at hempty
            cases list with
            | arr items => exact List.isEmpty_iff.mp hempty
            | obj members => rw [List.isEmpty_iff.mp hempty]; rfl
            | str s =>
                have hs : s = "" := of_decide_eq_true hempty
                rw [hs]
                rfl
            | _ => rfl
          rw [hnone]
          exact List.Forall₂.nil
        · exact index.entries_eq_ok _ ds h

/-- A declaration has the shape that the record of its type describes. -/
def HasTypeShape (d : Declaration) : Prop :=
  ∃ (record : Record) (s : Shape), index.typeRecord d.type = .ok (.obj record) ∧
    shape d.type record = .ok s ∧ d.shape = s.told

theorem EntryRead.hasTypeShape {index : Index} {value : Json} {d : Declaration}
    (h : index.EntryRead value d) : index.HasTypeShape d := by
  cases h with
  | read _ _ _ _ _ hrecord hshape =>
      rw [HasTypeShape, Declaration.withShape_type]
      exact ⟨_, _, hrecord, hshape, Declaration.shape_withShape_eq_told ..⟩

theorem ElementRead.hasTypeShape {index : Index} {key : Json} {d : Declaration}
    (h : index.ElementRead key d) : d.type = key ∧ index.HasTypeShape d := by
  cases h with
  | read hrecord hshape =>
      rw [HasTypeShape, Declaration.withShape_type]
      exact ⟨rfl, _, _, hrecord, hshape, Declaration.shape_withShape_eq_told ..⟩

end Index

end StorageLayout.Emitted
