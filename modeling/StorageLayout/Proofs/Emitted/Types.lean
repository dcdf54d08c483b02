import StorageLayout.Emitted.Declarations
import StorageLayout.Proofs.Declaration
import StorageLayout.Proofs.Lookup

/-!
# Types of Emitted Layouts

What the records of a type table say, told without the readers that take them apart.

A record describes one of five forms, and `Form` gives the five rules: which members of the record
make the form, and what each of them is. A mapping is told by its encoding, and then nothing else in
the record counts; an array is told by its base, and a struct by its members. The readers arrive at
the same form by asking in this order, which is `shape_of_form`.

Two conditions say more than the members are there. A length has to be readable. And a value under
which something is looked up later may not be null, because a declaration takes null for a key that
is not set: a mapping with a null side, or a struct that goes by null, would be taken for an
elementary type.

`WellFormed` collects what has to hold of a whole table so that nothing in it can be misread:
records are objects, mappings have texts for their key and value, arrays have lengths, structs have
entries that can be read, and every type that is named anywhere is in the table. A reader that
starts inside such a table stays inside it.

## Main definitions

* `TypeForm`: What a record can describe.
* `Form`, `Index.Describes`: The rules for the records.
* `IsReadable`: An entry with everything that is read from it.
* `WellFormed`: A table in which nothing can be misread.
* `Lists`: The entries of a contract.
* `Presents`, `Reads`: A declaration that stands for a type, and one that an entry makes.

## Theorems

* `shape_of_form`: The readers agree with the rules.
* `Describes.unique`: A key describes one form.
* `WellFormed.describes`: Every type in a well-formed table has a form, with readable parts.
* `entry_reads`, `element_presents`, `members_read`, `storage_read`: What is read is a declaration
  of the type.
-/

namespace StorageLayout.Emitted

/-- What the record of a type can describe. -/
inductive TypeForm where
  | fixedArray (length : Int) (base : Json)
  | dynamicArray (base : Json)
  /-- A struct with the entries of its members. -/
  | struct (members : List Json)
  | mapping (keyType value : Json)
  | elementary

/-- The type that an entry names. -/
def entryType (entry : Json) : Json := (entry.get? "type").getD .null

/-- The name that an entry gives to a variable or member. -/
def entryLabel (entry : Json) : Json := (entry.get? "label").getD .null

/-- An entry from which everything can be read: it has a type and a label, a slot that is a whole
number, and an offset that is one if it is there. -/
structure IsReadable (entry : Json) : Prop where
  type : (entry.get? "type").isSome = true
  label : (entry.get? "label").isSome = true
  slot : ∃ v n, entry.get? "slot" = some v ∧ wholeNumber v = .ok n
  offset : ∃ n, wholeNumber ((entry.get? "offset").getD (.int 0)) = .ok n

namespace TypeForm

/-- The element of an array or the value of a mapping. -/
def element? : TypeForm → Option Json
  | .fixedArray _ base => some base
  | .dynamicArray base => some base
  | .mapping _ value => some value
  | .struct _ => none
  | .elementary => none

/-- The entries of a struct. -/
def entries : TypeForm → List Json
  | .struct members => members
  | _ => []

/-- The types that a form names. -/
def named (form : TypeForm) : List Json := form.element?.toList ++ form.entries.map entryType

/-- An array or a mapping has no entries, and its element is all that it names. -/
theorem entries_of_element (form : TypeForm) (e : Json) (h : form.element? = some e) :
    form.entries = [] := by
  cases form with
  | struct _ => exact absurd h (by simp only [element?, reduceCtorEq, not_false_eq_true])
  | _ => rfl

theorem named_of_element (form : TypeForm) (e : Json) (h : form.element? = some e) :
    form.named = [e] := by
  rw [named, h, form.entries_of_element e h]
  rfl

/-- The shape of a declaration of the type with a key. -/
def shape (key : Json) : TypeForm → Shape
  | .fixedArray length base => .fixedArray (.int length) base
  | .dynamicArray base => .dynamicArray base
  | .struct _ => .struct key
  | .mapping keyType value => .mapping keyType value
  | .elementary => .elementary

end TypeForm

/-- The form that a record describes for the type with a key. -/
inductive Form (key : Json) (record : Record) : TypeForm → Prop
  | mapping {keyType value : Json}
      (isMapping : (record.get "encoding").isText "mapping" = true)
      (hasKey : record.find? "key" = some keyType) (hasValue : record.find? "value" = some value)
      (keyNotNull : keyType.isNull = false) (keyShowable : keyType.isShowable = true)
      (valueNotNull : value.isNull = false) :
      Form key record (.mapping keyType value)
  | dynamicArray {base : Json}
      (isDynamic : (record.get "encoding").isText "dynamic_array" = true)
      (hasBase : record.find? "base" = some base) :
      Form key record (.dynamicArray base)
  | fixedArray {base : Json} {length : Int}
      (notMapping : (record.get "encoding").isText "mapping" = false)
      (notDynamic : (record.get "encoding").isText "dynamic_array" = false)
      (hasBase : record.find? "base" = some base)
      (hasLength : arrayLength key record = .ok (.int length)) :
      Form key record (.fixedArray length base)
  | struct {list : Json} {entries : List Json}
      (notMapping : (record.get "encoding").isText "mapping" = false)
      (noBase : record.find? "base" = none)
      (hasMembers : record.find? "members" = some list) (hasEntries : list.elements = .ok entries)
      (notNull : key.isNull = false) :
      Form key record (.struct entries)
  | elementary
      (notMapping : (record.get "encoding").isText "mapping" = false)
      (noBase : record.find? "base" = none) (noMembers : record.find? "members" = none) :
      Form key record .elementary

/-- A table describes a form for the type with a key. -/
def Index.Describes (index : Index) (key : Json) (form : TypeForm) : Prop :=
  ∃ record, index.typeRecord key = .ok (.obj record) ∧ Form key record form

/-- The readers agree with the rules on the shape of a type. -/
theorem shape_of_form {key : Json} {record : Record} {form : TypeForm}
    (h : Form key record form) : shape key record = .ok (form.shape key) := by
  -- The order of the tests is that of the code: mapping, array by its base, struct by its members.
  cases h with
  | mapping isMapping hasKey hasValue =>
      simp only [shape, isMapping, if_true, Record.member, hasKey, hasValue]
      rfl
  | dynamicArray isDynamic hasBase =>
      have hnot := Json.isText_unique (t := "mapping") isDynamic (by decide)
      simp only [shape, hnot, isDynamic, hasBase, if_true, if_false, Bool.false_eq_true]
      rfl
  | fixedArray notMapping notDynamic hasBase hasLength =>
      simp only [shape, notMapping, notDynamic, hasBase, hasLength, if_false, Bool.false_eq_true]
      rfl
  | struct notMapping noBase hasMembers =>
      have hmembers : record.contains "members" = true := by
        simp only [Assoc.contains, hasMembers, Option.isSome_some]
      simp only [shape, notMapping, noBase, hmembers, if_true, if_false, Bool.false_eq_true]
      rfl
  | elementary notMapping noBase noMembers =>
      have hmembers : record.contains "members" = false := by
        simp only [Assoc.contains, noMembers, Option.isSome_none]
      simp only [shape, notMapping, noBase, hmembers, if_false, Bool.false_eq_true]
      rfl

/-- The kind of a form can be told from its shape. -/
theorem isTold_of_form {key : Json} {record : Record} {form : TypeForm}
    (h : Form key record form) : (form.shape key).IsTold := by
  cases h with
  | mapping _ _ _ keyNotNull _ valueNotNull => exact ⟨keyNotNull, valueNotNull⟩
  | dynamicArray _ _ => exact trivial
  | fixedArray _ _ _ _ => rfl
  | struct _ _ _ _ notNull => exact notNull
  | elementary _ _ _ => exact trivial

/-- The entries of a struct are read from its record, under the name that the readers use. -/
theorem entries_of_form {key : Json} {record : Record} {entries : List Json}
    (h : Form key record (.struct entries)) :
    (record.getList "members").elements = .ok entries := by
  cases h with
  | struct _ _ hasMembers hasEntries =>
      simp only [Record.getList, hasMembers, Option.getD_some, hasEntries]

/-- A record describes one form: the shape tells the kind and the parts, and the entries of a
struct all come from one list. -/
theorem Form.unique {key : Json} {record : Record} {f g : TypeForm} (hf : Form key record f)
    (hg : Form key record g) : f = g := by
  -- The shape tells the forms apart, except for the members of a struct, which stand in the record.
  have hs : f.shape key = g.shape key := by
    have h := shape_of_form hf
    rw [shape_of_form hg] at h
    injection h with h
    exact h.symm
  cases f with
  | struct es =>
      cases g with
      | struct es' =>
          have h := entries_of_form hf
          rw [entries_of_form hg] at h
          injection h with h
          rw [h]
      | _ => exact absurd hs (by simp only [TypeForm.shape, reduceCtorEq, not_false_eq_true])
  | fixedArray n base => cases g <;> simp_all [TypeForm.shape]
  | dynamicArray base => cases g <;> simp_all [TypeForm.shape]
  | mapping k v => cases g <;> simp_all [TypeForm.shape]
  | elementary => cases g <;> simp_all [TypeForm.shape]

namespace Index

/-- A key describes one form. -/
theorem Describes.unique {index : Index} {key : Json} {f g : TypeForm}
    (hf : index.Describes key f) (hg : index.Describes key g) : f = g := by
  rcases hf with ⟨r, hr, hrf⟩
  rcases hg with ⟨r', hr', hrg⟩
  rw [hr] at hr'
  injection hr' with h
  injection h with h
  rw [← h] at hrg
  exact hrf.unique hrg

/-- A declaration that stands for a type of the table: it occupies storage and has the shape that
the table describes. -/
def Presents (index : Index) (d : Declaration) : Prop :=
  d.constant = false ∧ ∃ form, index.Describes d.type form ∧ d.shape = form.shape d.type

/-- A declaration that an entry makes. -/
def Reads (index : Index) (entry : Json) (d : Declaration) : Prop :=
  d.label = entryLabel entry ∧ d.type = entryType entry ∧ index.Presents d

/-- The table describes the type that an entry names, and the entry can be read. -/
def Admits (index : Index) (entry : Json) : Prop :=
  IsReadable entry ∧ ∃ form, index.Describes (entryType entry) form

/-- A contract lists these entries as its storage. A list that says nothing is an empty one. -/
def Lists (index : Index) (fullName : String) (entries : List Json) : Prop :=
  ∃ contract layout, index.contracts.find? fullName = some contract ∧
    contract.record? "storageLayout" = some layout ∧
    (layout.get "storage" = .arr entries ∨
      ((layout.get "storage").isEmpty = true ∧ entries = []))

/-- A declaration that stands for a type has the shape of whatever the table describes for it. -/
theorem Presents.shape_eq {index : Index} {d : Declaration} (h : index.Presents d) (key : Json)
    (form : TypeForm) (htype : d.type = key) (hform : index.Describes key form) :
    d.shape = form.shape key := by
  rcases h with ⟨_, form', hform', hshape⟩
  rw [htype] at hform' hshape
  rw [hshape, hform'.unique hform]

/-- A declaration that is given the shape of its type stands for it. -/
theorem presents_withShape (index : Index) (label type typeName id slot offset : Json)
    (form : TypeForm) (h : index.Describes type form) :
    index.Presents (Declaration.withShape { label, type, typeName, id, slot, offset }
      (form.shape type)) := by
  have htold : (form.shape type).IsTold := by
    rcases h with ⟨record, _, hform⟩
    exact isTold_of_form hform
  refine ⟨by rw [Declaration.withShape_constant], form, ?_, ?_⟩
  · rw [Declaration.withShape_type]
    exact h
  · rw [Declaration.withShape_type]
    exact Declaration.shape_withShape _ _ _ _ _ _ _ _ _ htold

/-- An element is read as a declaration of its type. -/
theorem element_presents (index : Index) (key : Json) (form : TypeForm)
    (h : index.Describes key form) :
    ∃ d, index.element key = .ok d ∧ d.type = key ∧ index.Presents d := by
  rcases h with ⟨record, hrecord, hform⟩
  refine ⟨Declaration.withShape
    { label := .str "", type := key, typeName := typeName key record } (form.shape key),
    ?_, by rw [Declaration.withShape_type],
    index.presents_withShape _ key _ _ _ _ form ⟨record, hrecord, hform⟩⟩
  simp only [element, hrecord, shape_of_form hform, bind, Except.bind, Json.asRecord, pure,
    Except.pure]

/-- An entry is read as a declaration of the type that it names. -/
theorem entry_reads (index : Index) (value : Json) (h : index.Admits value) :
    ∃ d, index.entry value = .ok d ∧ index.Reads value d := by
  rcases h with ⟨hreadable, form, record, hrecord, hform⟩
  rcases Option.isSome_iff_exists.mp hreadable.type with ⟨key, hkey⟩
  rcases Option.isSome_iff_exists.mp hreadable.label with ⟨label, hlabel⟩
  rcases hreadable.slot with ⟨slot, n, hslot, hn⟩
  rcases hreadable.offset with ⟨o, ho⟩
  have htype : entryType value = key := by rw [entryType, hkey, Option.getD_some]
  have hname : entryLabel value = label := by rw [entryLabel, hlabel, Option.getD_some]
  rw [htype] at hrecord hform
  -- Only an object has members, so the value is one.
  cases hfields : value.members? with
  | none =>
      simp only [Json.get?, hfields, Option.bind_none, reduceCtorEq] at hkey
  | some fields =>
      simp only [Json.get?, hfields, Option.bind_some] at hkey hlabel hslot ho
      refine ⟨Declaration.withShape
        { label, type := key, typeName := typeName key record, id := fields.get "astId",
          slot := .int n, offset := .int o } (form.shape key), ?_, ?_, ?_,
        index.presents_withShape _ key _ _ _ _ form ⟨record, hrecord, hform⟩⟩
      · simp only [entry, hfields, entryMember, hkey, hlabel, hslot, entryNumber, hn, ho,
          hrecord, shape_of_form hform, Json.asRecord, bind, Except.bind, pure, Except.pure]
      · rw [Declaration.withShape_label, hname]
      · rw [Declaration.withShape_type, htype]

/-- What holds of the types of declarations holds of the types that their entries name. -/
theorem forall_types_iff (index : Index) (P : Json → Prop) (es : List Json)
    (ds : List Declaration) (h : List.Forall₂ index.Reads es ds) :
    (∀ e ∈ es, P (entryType e)) ↔ ∀ d ∈ ds, P d.type := by
  induction h with
  | nil =>
      exact ⟨fun _ d hd => absurd hd List.not_mem_nil, fun _ e he => absurd he List.not_mem_nil⟩
  | cons hd _ ih => rw [List.forall_mem_cons, List.forall_mem_cons, ih, hd.2.1]

theorem presents_of_reads (index : Index) (es : List Json) (ds : List Declaration)
    (h : List.Forall₂ index.Reads es ds) : ∀ d ∈ ds, index.Presents d := by
  induction h with
  | nil => exact fun d hd => absurd hd List.not_mem_nil
  | cons hd _ ih => exact List.forall_mem_cons.mpr ⟨hd.2.2, ih⟩

/-- The entries of a list are read one by one. -/
theorem entries_read (index : Index) (list : Json) (es : List Json)
    (hlist : list.elements = .ok es) (h : ∀ e ∈ es, index.Admits e) :
    ∃ ds, index.entries list = .ok ds ∧ List.Forall₂ index.Reads es ds := by
  rcases mapM_eq_ok index.entry index.Reads es (fun e he => entry_reads index e (h e he)) with
    ⟨ds, hds, hreads⟩
  refine ⟨ds, ?_, hreads⟩
  rw [entries, hlist]
  exact hds

/-- The members of a struct are read from its entries. -/
theorem members_read (index : Index) (key : Json) (es : List Json)
    (h : index.Describes key (.struct es)) (hes : ∀ e ∈ es, index.Admits e) :
    ∃ ds, index.members key = .ok ds ∧ List.Forall₂ index.Reads es ds := by
  rcases h with ⟨record, hrecord, hform⟩
  rcases entries_read index _ es (entries_of_form hform) hes with ⟨ds, hds, hreads⟩
  refine ⟨ds, ?_, hreads⟩
  rw [members, hrecord]
  exact hds

/-- The storage of a contract is read from the entries that it lists. -/
theorem storage_read (index : Index) (fullName : String) (es : List Json)
    (h : index.Lists fullName es) (hes : ∀ e ∈ es, index.Admits e) :
    ∃ ds, index.storage fullName = .ok ds ∧ List.Forall₂ index.Reads es ds := by
  rcases h with ⟨contract, layout, hcontract, hlayout, hstorage⟩
  -- A contract that is null has no layout, so this case of the code is excluded.
  have hnull : contract ≠ .null := by
    intro hc
    rw [hc] at hlayout
    exact absurd hlayout (by simp [Json.record?, Json.get?, Json.members?])
  have hopen : index.storage fullName
      = if (layout.get "storage").isEmpty then .ok []
        else index.entries (layout.get "storage") := by
    rw [storage, hcontract]
    simp only [hlayout]
  rw [hopen]
  by_cases hempty : (layout.get "storage").isEmpty = true
  · rw [if_pos hempty]
    have hnil : es = [] := by
      rcases hstorage with hlist | ⟨_, hnil⟩
      · rw [hlist] at hempty
        exact List.isEmpty_iff.mp hempty
      · exact hnil
    rw [hnil]
    exact ⟨[], rfl, List.Forall₂.nil⟩
  · rw [if_neg hempty]
    rcases hstorage with hlist | ⟨hyes, _⟩
    · exact entries_read index _ es (by rw [hlist]; rfl) hes
    · exact absurd hyes hempty

/-- The type with a key is in the table. -/
def Has (index : Index) (key : Json) : Prop := ∃ v, index.typeRecord key = .ok v

/-- A table in which nothing can be misread, and which names no type that it does not have. -/
structure WellFormed (index : Index) : Prop where
  /-- Null stands for a key that is not set, so no type goes by it. -/
  named : index.types.find? .null = none
  isObject : ∀ key v, index.typeRecord key = .ok v → ∃ record : Record, v = .obj record
  mapping : ∀ (key : Json) (record : Record), index.typeRecord key = .ok (.obj record) →
    (record.get "encoding").isText "mapping" = true →
    ∃ k v, record.find? "key" = some (.str k) ∧ record.find? "value" = some (.str v) ∧
      index.Has (.str v)
  array : ∀ (key : Json) (record : Record) (base : Json),
    index.typeRecord key = .ok (.obj record) →
    (record.get "encoding").isText "mapping" = false → record.find? "base" = some base →
    ((record.get "encoding").isText "dynamic_array" = true ∨
      ∃ n : Int, arrayLength key record = .ok (.int n)) ∧ index.Has base
  struct : ∀ (key : Json) (record : Record) (list : Json),
    index.typeRecord key = .ok (.obj record) →
    (record.get "encoding").isText "mapping" = false → record.find? "base" = none →
    record.find? "members" = some list →
    ∃ es, list = .arr es ∧ ∀ e ∈ es, IsReadable e ∧ index.Has (entryType e)

/-- What is known of the form of a type in a well-formed table: its parts are in the table, too, and
its entries can be read. -/
def Closed (index : Index) (form : TypeForm) : Prop :=
  (∀ k ∈ form.named, index.Has k) ∧ ∀ e ∈ form.entries, IsReadable e

/-- An array or a mapping names its element and nothing else. -/
theorem closed_of_element (index : Index) (form : TypeForm) (e : Json)
    (he : form.element? = some e) (h : index.Has e) : index.Closed form := by
  refine ⟨fun k hk => ?_, fun e' he' => ?_⟩
  · rw [form.named_of_element e he, List.mem_singleton] at hk
    rw [hk]
    exact h
  · rw [form.entries_of_element e he] at he'
    exact absurd he' List.not_mem_nil

/-- No type of a well-formed table goes by null. -/
theorem WellFormed.not_null (index : Index) (wf : index.WellFormed) (key : Json)
    (h : index.Has key) : key.isNull = false := by
  rcases h with ⟨v, hv⟩
  cases key with
  | null =>
      simp only [typeRecord, Json.asKey, Json.key?, bind, Except.bind, wf.named] at hv
      exact absurd hv (by simp only [throw, throwThe, MonadExceptOf.throw, reduceCtorEq,
        not_false_eq_true])
  | _ => rfl

/-- Every type of a well-formed table has a form, and the form is closed in the table. The cases
are those of the readers: first the encoding, then the base, then the members. -/
theorem WellFormed.describes (index : Index) (wf : index.WellFormed) (key : Json)
    (h : index.Has key) : ∃ form, index.Describes key form ∧ index.Closed form := by
  have hnull := wf.not_null index key h
  rcases h with ⟨v, hv⟩
  rcases wf.isObject key v hv with ⟨record, hrecord⟩
  rw [hrecord] at hv
  -- The tests of the code again: each answer is what one part of being well formed asks about.
  cases hmapping : (record.get "encoding").isText "mapping" with
  | true =>
      rcases wf.mapping key record hv hmapping with ⟨k, value, hk, hvalue, hhas⟩
      exact ⟨.mapping (.str k) (.str value), ⟨record, hv, .mapping hmapping hk hvalue rfl rfl rfl⟩,
        index.closed_of_element _ (.str value) rfl hhas⟩
  | false =>
      cases hbase : Assoc.find? "base" record with
      | some base =>
          rcases wf.array key record base hv hmapping hbase with ⟨hlength, hhas⟩
          cases hdynamic : (record.get "encoding").isText "dynamic_array" with
          | true =>
              exact ⟨.dynamicArray base, ⟨record, hv, .dynamicArray hdynamic hbase⟩,
                index.closed_of_element _ base rfl hhas⟩
          | false =>
              rw [hdynamic] at hlength
              rcases hlength.resolve_left Bool.false_ne_true with ⟨n, hn⟩
              exact ⟨.fixedArray n base, ⟨record, hv, .fixedArray hmapping hdynamic hbase hn⟩,
                index.closed_of_element _ base rfl hhas⟩
      | none =>
          cases hmembers : Assoc.find? "members" record with
          | none =>
              exact ⟨.elementary, ⟨record, hv, .elementary hmapping hbase hmembers⟩,
                fun k hk => absurd hk List.not_mem_nil, fun e he => absurd he List.not_mem_nil⟩
          | some list =>
              rcases wf.struct key record list hv hmapping hbase hmembers with ⟨es, hes, hall⟩
              refine ⟨.struct es, ⟨record, hv, .struct hmapping hbase hmembers (by rw [hes]; rfl)
                hnull⟩, fun k hk => ?_, fun e he => (hall e he).1⟩
              rcases List.mem_map.mp hk with ⟨e, he, hek⟩
              rw [← hek]
              exact (hall e he).2

/-- In a well-formed table, every form that a record describes is closed. -/
theorem WellFormed.closed (index : Index) (wf : index.WellFormed) (key : Json) (form : TypeForm)
    (h : index.Describes key form) : index.Closed form := by
  have hhas : index.Has key := by
    rcases h with ⟨record, hrecord, _⟩
    exact ⟨_, hrecord⟩
  rcases wf.describes index key hhas with ⟨form', hform', hclosed⟩
  rw [h.unique hform']
  exact hclosed

/-- In a well-formed table, the entries of a struct can be read as declarations. -/
theorem WellFormed.admits (index : Index) (wf : index.WellFormed) (e : Json)
    (hreadable : IsReadable e) (h : index.Has (entryType e)) : index.Admits e := by
  rcases wf.describes index _ h with ⟨form, hform, _⟩
  exact ⟨hreadable, form, hform⟩

theorem WellFormed.admits_members (index : Index) (wf : index.WellFormed) (key : Json)
    (es : List Json) (h : index.Describes key (.struct es)) : ∀ e ∈ es, index.Admits e := by
  intro e he
  rcases wf.closed index key _ h with ⟨hnamed, hreadable⟩
  refine wf.admits index e (hreadable e he) (hnamed (entryType e) ?_)
  exact List.mem_map_of_mem he

end Index

end StorageLayout.Emitted
