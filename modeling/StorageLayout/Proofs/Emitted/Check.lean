import StorageLayout.Proofs.Emitted.Types
import StorageLayout.Proofs.Lookup

/-!
# Checking a Type Table

A test that a table of types is well-formed, and that it can be trusted.

`WellFormed` speaks of every key under which a record can be found, and there is no going through
those. But the table is a list, so going through its entries does the same, as long as every type
goes by a text: a text is the only key of its kind, whereas a number can be written in several
ways. Tables that a compiler writes are of this sort.

## Main definitions

* `isReadable`: The test for one entry of a struct.
* `checksRecord`: The test for one record.
* `checks`: The test for a table.

## Theorems

* `isReadable_sound`: An entry that passes can be read.
* `typeRecord_ok`: Where the record of a type is found.
* `wellFormed_of_checks`: A table that passes is well-formed.
-/

namespace StorageLayout.Emitted

/-- Whether a value is a whole number or denotes one. -/
def isWhole (v : Json) : Bool := (wholeNumber v).isOk

/-- Whether everything can be read from an entry. -/
def isReadable (entry : Json) : Bool :=
  (entry.get? "type").isSome && (entry.get? "label").isSome &&
    (entry.get? "slot").any isWhole && isWhole ((entry.get? "offset").getD (.int 0))

namespace Index

/-- Whether the type with a key is in the table. -/
def has (index : Index) (key : Json) : Bool := (index.typeRecord key).isOk

/-- Whether the length of an array can be read. -/
def hasLength (key : Json) (record : Record) : Bool :=
  match arrayLength key record with
  | .ok (.int _) => true
  | _ => false

/-- Whether the record of the type with a key can be read, and names only types of the table. -/
def checksRecord (index : Index) (key : Json) (record : Record) : Bool :=
  if (record.get "encoding").isText "mapping" then
    match record.find? "key", record.find? "value" with
    | some (.str _), some (.str v) => index.has (.str v)
    | _, _ => false
  else match record.find? "base" with
    | some base =>
      ((record.get "encoding").isText "dynamic_array" || hasLength key record)
        && index.has base
    | none => match record.find? "members" with
      | none => true
      | some (.arr es) => es.all fun e => isReadable e && index.has (entryType e)
      | some _ => false

/-- Whether every type of a table goes by a text and has a record that can be read. -/
def checks (index : Index) : Bool :=
  index.types.all fun p =>
    match p.1, p.2.record with
    | .text s, .obj record => index.checksRecord (.str s) record
    | _, _ => false

end Index

/-- An entry that passes can be read. -/
theorem isReadable_sound (entry : Json) (h : isReadable entry = true) : IsReadable entry := by
  simp only [isReadable, Bool.and_eq_true] at h
  rcases h with ⟨⟨⟨htype, hlabel⟩, hslot⟩, hoffset⟩
  refine ⟨htype, hlabel, ?_, (isOk_iff _).mp hoffset⟩
  -- A slot is asked for, whereas an offset may be missing.
  cases hv : entry.get? "slot" with
  | none =>
      rw [hv] at hslot
      exact absurd hslot Bool.false_ne_true
  | some v =>
      rw [hv] at hslot
      rcases (isOk_iff _).mp hslot with ⟨n, hn⟩
      exact ⟨v, n, rfl, hn⟩

namespace Index

/-- A record of the table is found under the key of its type. -/
theorem typeRecord_ok (index : Index) (key v : Json) (h : index.typeRecord key = .ok v) :
    ∃ k e, key.key? = some k ∧ index.types.find? k = some e ∧ v = e.record := by
  rcases (bind_eq_ok _ _ _).mp h with ⟨k, hk, hv⟩
  -- A key of no entry is reported, so there is one.
  cases he : index.types.find? k with
  | none =>
      simp only [he] at hv
      exact absurd hv (by simp only [throw, throwThe, MonadExceptOf.throw, reduceCtorEq,
        not_false_eq_true])
  | some e =>
      simp only [he] at hv
      injection hv with hv
      exact ⟨k, e, (Json.asKey_eq_ok_iff key k).mp hk, he, hv.symm⟩

/-- The record of a type in a table that passes is an object that passes. -/
theorem record_of_checks (index : Index) (h : index.checks = true) (key v : Json)
    (hv : index.typeRecord key = .ok v) :
    ∃ record : Record, v = .obj record ∧ index.checksRecord key record = true := by
  rcases index.typeRecord_ok key v hv with ⟨k, e, hk, he, hve⟩
  have hp := List.all_eq_true.mp h (k, e) (Assoc.find?_mem k e _ he)
  rw [hve]
  cases k with
  | text s =>
      -- The key was looked up by its content, and a text is the only value with this one.
      rw [Json.eq_str_of_key? key s hk]
      cases hr : e.record with
      | obj record =>
          simp only [hr] at hp
          exact ⟨record, rfl, hp⟩
      | _ =>
          simp only [hr] at hp
          exact absurd hp Bool.false_ne_true
  | _ => exact absurd hp Bool.false_ne_true

theorem hasLength_sound (key : Json) (record : Record) (h : hasLength key record = true) :
    ∃ n : Int, arrayLength key record = .ok (.int n) := by
  unfold hasLength at h
  split at h
  · rename_i n hn
    exact ⟨n, hn⟩
  · exact absurd h Bool.false_ne_true

theorem has_sound (index : Index) (key : Json) (h : index.has key = true) : index.Has key :=
  (isOk_iff _).mp h

/-- A table that passes is well-formed. -/
theorem wellFormed_of_checks (index : Index) (h : index.checks = true) : index.WellFormed where
  named := by
    cases he : index.types.find? .null with
    | none => rfl
    | some e =>
        have hp := List.all_eq_true.mp h (.null, e) (Assoc.find?_mem _ e _ he)
        exact absurd hp Bool.false_ne_true
  isObject key v hv := by
    rcases index.record_of_checks h key v hv with ⟨record, hrecord, _⟩
    exact ⟨record, hrecord⟩
  mapping key record hv hmapping := by
    rcases index.record_of_checks h key _ hv with ⟨_, hr, hp⟩
    injection hr with hr
    -- The check of a record takes the branch of its form, which is the part of it that is needed.
    rw [← hr, checksRecord, if_pos hmapping] at hp
    split at hp
    · rename_i k v hk hvalue
      exact ⟨k, v, hk, hvalue, index.has_sound _ hp⟩
    · exact absurd hp Bool.false_ne_true
  array key record base hv hmapping hbase := by
    rcases index.record_of_checks h key _ hv with ⟨_, hr, hp⟩
    injection hr with hr
    rw [← hr, checksRecord, hmapping, if_neg Bool.false_ne_true, hbase, Bool.and_eq_true,
      Bool.or_eq_true] at hp
    exact ⟨hp.1.imp_right (hasLength_sound key record), index.has_sound base hp.2⟩
  struct key record list hv hmapping hbase hmembers := by
    rcases index.record_of_checks h key _ hv with ⟨_, hr, hp⟩
    injection hr with hr
    rw [← hr, checksRecord, hmapping, if_neg Bool.false_ne_true, hbase, hmembers] at hp
    cases list with
    | arr es =>
        refine ⟨es, rfl, fun e he => ?_⟩
        have hentry := List.all_eq_true.mp hp e he
        rw [Bool.and_eq_true] at hentry
        exact ⟨isReadable_sound e hentry.1, index.has_sound _ hentry.2⟩
    | _ => exact absurd hp Bool.false_ne_true

end Index

end StorageLayout.Emitted
