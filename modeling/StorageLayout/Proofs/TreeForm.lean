import StorageLayout.Proofs.Emitted.Reading
import StorageLayout.Proofs.Occurrence

/-!
# The Form of Layout Trees

What holds at every node of a layout, at every depth.

A node has no children, or a list of them, and which children it has follows from the shape of its
declaration: all members of a struct that occupy storage, or what describes an element. An element
is described by nothing if it is elementary, by the members if it is a struct, and else by one node
without a name, which is labelled by the type of the keys below a mapping and by empty brackets
below an array. `IsFormed` says this for one node; together with `Occurs`, which gives the
declarations of the children, it determines the whole tree.

What a node says besides depends on the source. Trees have no slots. Emitted layouts have a slot and
an offset for each entry, and a node that stands for an entry has those of that very entry,
`entryOf?`, while a node for an element has neither. They are whole numbers even if the entry gives
a number with a fraction: that is cut off, so that the node does not say what its entry says. A
numeral with a fraction is refused instead.

## Main definitions

* `IsFormed`: What a node has below it, with the facts of the children.
* `Emitted.Index.entryOf?`: The entry from which a declaration comes.
* `IsWholePartOf`: A slot or an offset with the value that gives it.
* `HasSourceFacts`: What a node says by its source.

## Theorems

* `isFormed_of_expand`: What the resolver makes is formed.
* `entry_of_occurs`: The declaration of a variable or member is read from its own entry.
* `hasSourceFacts_of_occurs`: What a node says is what its source says there.
* `layoutOf_treeForm`: The form of layout trees.
* `layoutOf_fraction`: A slot that is not the number of its entry.
-/

namespace StorageLayout

/-- The label of the node for an element, by the type of keys that the node above it has. -/
def elementName (keyType : Json) : String :=
  let shown := keyType.display
  if keyType.isNull then "[]" else s!"[{shown}]"

/-- What a node of a declaration has below it: nothing, the members of a struct that occupy storage,
or what describes an element. `keyType` is the type of keys that the node has. -/
inductive IsFormed (source : Source) (d : Declaration) (keyType : Json) :
    Option (List TypeReference) → Prop
  | elementary (hshape : d.shape = .elementary) : IsFormed source d keyType none
  | members {m : Json} {ds : List Declaration} {ys : List TypeReference}
      (hm : HasMembersOf source d.shape m) (hds : source.members m = .ok ds)
      (hys : List.Forall₂ (fun d' y => y.facts = d'.nodeFacts) (stored ds) ys) :
      IsFormed source d keyType (some ys)
  | ofElementary {key : Json} {e : Declaration} (hkey : d.shape.element? = some key)
      (he : source.element key = .ok e) (hshape : e.shape = .elementary) :
      IsFormed source d keyType (some [])
  | ofComposite {key inner : Json} {e : Declaration} {y : TypeReference}
      (hkey : d.shape.element? = some key) (he : source.element key = .ok e)
      (hshape : e.shape.element? = some inner)
      (hy : y.facts = { e.nodeFacts with name := .str (elementName keyType) }) :
      IsFormed source d keyType (some [y])

namespace Declaration

/-- Length and type of keys belong to different shapes. -/
theorem length_or_keyType_null (d : Declaration) :
    d.nodeFacts.length.isNull = true ∨ d.nodeFacts.keyType.isNull = true := by
  rw [nodeFacts_length, nodeFacts_keyType]
  cases d.shape with
  | fixedArray length element => exact Or.inr rfl
  | _ => exact Or.inl rfl

/-- A length or a type of keys shows an array or a mapping. -/
theorem element_of_length_or_keyType (d : Declaration)
    (h : d.nodeFacts.length.isNull = false ∨ d.nodeFacts.keyType.isNull = false) :
    ∃ key, d.shape.element? = some key := by
  rw [nodeFacts_length, nodeFacts_keyType] at h
  cases hshape : d.shape with
  | fixedArray length element => exact ⟨element, rfl⟩
  | dynamicArray element => exact ⟨element, rfl⟩
  | mapping keyType value => exact ⟨value, rfl⟩
  -- Neither of the two facts comes with a struct or with an elementary type.
  | struct members =>
      rw [hshape] at h
      exact absurd h (by simp only [Json.isNull, reduceCtorEq, or_self, not_false_eq_true])
  | elementary =>
      rw [hshape] at h
      exact absurd h (by simp only [Json.isNull, reduceCtorEq, or_self, not_false_eq_true])

/-- A mapping is told only if the type of its keys is there. -/
theorem keyType_not_null (d : Declaration) (keyType value : Json)
    (h : d.shape = .mapping keyType value) : keyType.isNull = false := by
  -- A mapping is only tried last, when there is a type of keys.
  unfold shape at h
  split at h
  · exact absurd h (by simp only [reduceCtorEq, not_false_eq_true])
  · split at h
    · exact absurd h (by simp only [reduceCtorEq, not_false_eq_true])
    · split at h
      · exact absurd h (by simp only [reduceCtorEq, not_false_eq_true])
      · split at h
        · rename_i hset
          injection h with hkey _
          rw [Bool.and_eq_true, Bool.not_eq_true'] at hset
          rw [← hkey]
          exact hset.1
        · exact absurd h (by simp only [reduceCtorEq, not_false_eq_true])

/-- The label of an element is made of the type of keys that the node above it shows. -/
theorem elementLabel_eq (d : Declaration) (key label : Json) (hkey : d.shape.element? = some key)
    (h : d.shape.elementLabel = .ok label) :
    label = .str (elementName d.nodeFacts.keyType) := by
  rw [nodeFacts_keyType]
  cases hshape : d.shape with
  | mapping keyType value =>
      rw [hshape] at h
      rcases (bind_eq_ok _ _ _).mp h with ⟨shown, hshown, h⟩
      injection h with h
      unfold Json.shown at hshown
      split at hshown
      · injection hshown with hshown
        simp only [elementName, d.keyType_not_null keyType value hshape, Bool.false_eq_true,
          if_false]
        rw [← h, ← hshown]
      · exact absurd hshown (by simp only [Defect.fail, reduceCtorEq, not_false_eq_true])
  -- The elements of arrays have no name of their own.
  | fixedArray length element =>
      rw [hshape] at h
      injection h with h
      exact h.symm
  | dynamicArray element =>
      rw [hshape] at h
      injection h with h
      exact h.symm
  | struct members =>
      rw [hshape] at hkey
      exact absurd hkey (by simp only [Shape.element?, reduceCtorEq, not_false_eq_true])
  | elementary =>
      rw [hshape] at hkey
      exact absurd hkey (by simp only [Shape.element?, reduceCtorEq, not_false_eq_true])

/-- The node of an element under another label. -/
theorem nodeFacts_label (d : Declaration) (label : Json) :
    ({ d with label } : Declaration).nodeFacts = { d.nodeFacts with name := label } := by
  have hshape : ({ d with label } : Declaration).shape = d.shape := rfl
  unfold nodeFacts
  rw [hshape]
  cases d.shape <;> rfl

end Declaration

namespace Ast.Index

variable (index : Index)

/-- What has been read of a variable, but for its shape. -/
theorem declaration_eq_ok (node : Record) (d : Declaration) (h : index.declaration node = .ok d) :
    ∃ description s, node.orEmpty "typeDescriptions" = .ok description ∧
      d = Declaration.withShape
        { label := node.getText "name", type := Record.getText description "typeIdentifier",
          typeName := Record.getText description "typeString", id := node.get "id",
          visibility := node.get "visibility", constant := isConstant node } s := by
  rcases (bind_eq_ok _ _ _).mp h with ⟨description, hdescription, h⟩
  simp only at h
  split at h
  · injection h with h
    exact ⟨description, .elementary, hdescription, h.symm⟩
  · rcases (bind_eq_ok _ _ _).mp h with ⟨s, _, h⟩
    injection h with h
    exact ⟨description, s, hdescription, h.symm⟩

/-- What trees say has no slot and no offset, and an element is no constant. -/
theorem element_eq_ok (id : Json) (d : Declaration) (h : index.element id = .ok d) :
    d.slot = .null ∧ d.offset = .null ∧ d.constant = false := by
  rcases (bind_eq_ok _ _ _).mp h with ⟨node, _, h⟩
  rcases (bind_eq_ok _ _ _).mp h with ⟨description, _, h⟩
  rcases (bind_eq_ok _ _ _).mp h with ⟨s, _, h⟩
  injection h with h
  rw [← h, Declaration.withShape_slot, Declaration.withShape_offset, Declaration.withShape_constant]
  exact ⟨rfl, rfl, rfl⟩

/-- Every declaration in a list is that of a node. -/
theorem declarations_eq_ok (nodes : Json) (ds : List Declaration)
    (h : index.declarations nodes = .ok ds) :
    ∀ d ∈ ds, ∃ node, index.declaration node = .ok d := by
  rcases (bind_eq_ok _ _ _).mp h with ⟨items, _, h⟩
  intro d hd
  rcases List.mem_iff_getElem?.mp hd with ⟨i, hi⟩
  rcases forall₂_getElem? (mapM_items _ _ ds h) hi with ⟨item, _, hitem⟩
  rcases (bind_eq_ok _ _ _).mp hitem with ⟨node, _, hnode⟩
  exact ⟨node, hnode⟩

/-- The variables of a contract are those of its bases. -/
theorem storage_eq_ok (fullName : String) (ds : List Declaration)
    (h : index.storage fullName = .ok ds) :
    ∀ d ∈ ds, ∃ node, index.declaration node = .ok d := by
  unfold storage at h
  split at h
  · exact absurd h (by simp only [reduceCtorEq, not_false_eq_true])
  · rcases (bind_eq_ok _ _ _).mp h with ⟨bases, _, h⟩
    rcases (bind_eq_ok _ _ _).mp h with ⟨parts, hparts, h⟩
    injection h with h
    -- A variable was declared in one of the bases, so it was read as one of their declarations.
    intro d hd
    rw [← h] at hd
    rcases List.mem_flatten.mp hd with ⟨part, hpart, hd⟩
    rcases List.mem_iff_getElem?.mp hpart with ⟨i, hi⟩
    rcases forall₂_getElem? (mapM_items _ _ parts hparts) hi with ⟨base, _, hbase⟩
    rcases (bind_eq_ok _ _ _).mp hbase with ⟨node, _, hnode⟩
    exact index.declarations_eq_ok _ part hnode d hd

end Ast.Index

/-- An element is no constant, whatever the source. -/
theorem element_not_constant (source : Source) (key : Json) (e : Declaration)
    (h : source.element key = .ok e) : e.constant = false := by
  cases source with
  | ast index => exact (index.element_eq_ok key e h).2.2
  | layout index =>
      cases index.elementRead key e h with
      | read _ _ => rw [Declaration.withShape_constant]

/-- What the resolver makes is formed: its children are those that the shape of the declaration
asks for, and all of them. -/
theorem isFormed_of_expand (source : Source) (limit : Json) (b : Nat) (d : Declaration)
    (x : TypeReference) (h : expand source (resolve source limit b) d = .ok x) :
    IsFormed source d x.facts.keyType x.subType := by
  rcases expand_eq_ok source _ d x h with ⟨hfacts, hbelow⟩
  rw [hfacts]
  generalize hs : d.shape = s at hbelow
  generalize x.subType = t at hbelow
  cases hbelow with
  | elementary => exact .elementary hs
  | members hm hds hrun =>
      rcases resolve_eq_ok source _ _ _ _ hrun with ⟨c, _, hnodes⟩
      rw [← hs] at hm
      exact .members hm hds (hnodes.imp fun d' y hy => (expand_eq_ok source _ d' y hy).1)
  | ofElementary hkey he hshape => exact .ofElementary (hs ▸ hkey) he hshape
  | @ofComposite _ key inner label e ys hkey hlabel he hshape hrun =>
      rcases resolve_eq_ok source _ _ _ _ hrun with ⟨c, _, hnodes⟩
      -- The element is no constant, so it becomes the one node.
      have hstored : stored [{ e with label }] = [{ e with label }] := by
        have hconstant := element_not_constant source key e he
        simp only [stored, List.filter_cons, hconstant, Bool.not_false, if_true, List.filter_nil]
      rw [hstored] at hnodes
      cases hnodes with
      | cons hy hrest =>
          cases hrest with
          | nil =>
              rw [← hs] at hkey hlabel
              refine .ofComposite hkey he hshape ?_
              rw [(expand_eq_ok source _ _ _ hy).1, Declaration.nodeFacts_label,
                d.elementLabel_eq key label hkey hlabel]

/-- The number that a value gives, with its fraction. -/
def Json.number? : Json → Option Rat
  | .int n => some n
  | .bool b => some (if b then 1 else 0)
  | .real .negativeZero => some 0
  | .real (.finite r) => some r
  | .str s => (Text.decimal s.toList).toOption.map fun n => (n : Rat)
  | _ => none

/-- A slot or an offset that is shown is the whole part of the number that a value gives, and so the
number itself if that is whole. -/
def IsWholePartOf (value shown : Json) : Prop :=
  ∃ q, value.number? = some q ∧ shown = .int (Binary64.truncate q) ∧
    ∀ n : Int, q = n → shown = .int n

/-- A whole number has no fraction to be cut off. -/
theorem truncate_intCast (n : Int) : Binary64.truncate (n : Rat) = n := by
  unfold Binary64.truncate
  split
  · exact Rat.ceil_intCast n
  · exact Rat.floor_intCast n

theorem isWholePartOf_of_number (value : Json) (q : Rat) (hq : value.number? = some q) :
    IsWholePartOf value (.int (Binary64.truncate q)) :=
  ⟨q, hq, rfl, fun n hn => by rw [hn, truncate_intCast]⟩

/-- What is read for a slot or an offset is the whole part of the number that stands there. -/
theorem isWholePartOf_of_wholeNumber (value : Json) (n : Int)
    (h : Emitted.wholeNumber value = .ok n) : IsWholePartOf value (.int n) := by
  have hwhole : ∀ m : Int, value.number? = some (m : Rat) → m = n →
      IsWholePartOf value (.int n) := by
    intro m hm hmn
    have hpart := isWholePartOf_of_number value m hm
    rw [truncate_intCast, hmn] at hpart
    exact hpart
  -- Only a fraction is not its own whole part. Texts are read as decimal numerals.
  cases value with
  | int m =>
      injection h with h
      exact hwhole m rfl h
  | bool b =>
      injection h with h
      refine hwhole (if b then 1 else 0) ?_ h
      cases b <;> rfl
  | real r =>
      cases r with
      | finite q =>
          injection h with h
          rw [← h]
          exact isWholePartOf_of_number _ q rfl
      | negativeZero =>
          injection h with h
          exact hwhole 0 rfl h
      | nan => exact absurd h (by simp only [Emitted.wholeNumber, reduceCtorEq, not_false_eq_true])
      | infinity _ =>
          exact absurd h (by simp only [Emitted.wholeNumber, reduceCtorEq, not_false_eq_true])
  | str s =>
      unfold Emitted.wholeNumber at h
      simp only at h
      cases hdecimal : Text.decimal s.toList with
      | ok m =>
          rw [hdecimal] at h
          injection h with h
          exact hwhole m (by simp only [Json.number?, hdecimal]; rfl) h
      | error fault =>
          rw [hdecimal] at h
          cases fault <;> exact absurd h (by simp only [reduceCtorEq, not_false_eq_true])
  | _ => exact absurd h (by simp only [Emitted.wholeNumber, reduceCtorEq, not_false_eq_true])

namespace Emitted.Index

variable (index : Index)

/-- The entry from which a declaration of a contract's layout comes. -/
def entryOf? (fullName : String) : Origin → Option Json
  | .storage i =>
    ((index.contracts.find? fullName).bind (·.record? "storageLayout")).bind fun layout =>
      (entriesIn (Record.get layout "storage"))[i]?
  | .member m i =>
    ((index.typeRecord m).toOption.bind Json.members?).bind fun record =>
      (entriesIn (Record.getList record "members"))[i]?
  | .element _ => none

/-- Everything that has an entry occupies storage. -/
theorem stored_of_entries (items : List Json) (ds : List Declaration)
    (h : List.Forall₂ (fun item d => index.entry item = .ok d) items ds) : stored ds = ds := by
  refine List.filter_eq_self.mpr (fun d hd => ?_)
  rcases List.mem_iff_getElem?.mp hd with ⟨i, hi⟩
  rcases forall₂_getElem? h hi with ⟨item, _, hitem⟩
  cases index.entryRead item d hitem with
  | read _ _ _ _ _ _ _ =>
      rw [Declaration.withShape_constant]
      rfl

/-- The declaration of a variable or member is read from its own entry. -/
theorem entry_of_occurs (fullName : String) (forest : List TypeReference) (n : Nat) (o : Origin)
    (d : Declaration) (x : TypeReference)
    (h : Occurs (.layout index) fullName forest n o d x) :
    (∃ entry, index.entryOf? fullName o = some entry ∧ index.entry entry = .ok d) ∨
      ∃ key label e, o = .element key ∧ index.element key = .ok e ∧ d = { e with label } := by
  cases h with
  -- Entries are read in order, so the place among the declarations is the place among the entries.
  | storage hds hd _ =>
      rcases index.storage_eq_ok fullName _ hds with ⟨contract, layout, hcontract, hlayout, hitems⟩
      rw [index.stored_of_entries _ _ hitems] at hd
      rcases forall₂_getElem? hitems hd with ⟨entry, hentry, hread⟩
      refine Or.inl ⟨entry, ?_, hread⟩
      rw [entryOf?, hcontract, Option.bind_some, hlayout, Option.bind_some, hentry]
  | member _ _ hds hd _ _ =>
      rcases index.members_eq_ok _ _ hds with ⟨record, hrecord, hitems⟩
      rw [index.stored_of_entries _ _ hitems] at hd
      rcases forall₂_getElem? hitems hd with ⟨entry, hentry, hread⟩
      refine Or.inl ⟨entry, ?_, hread⟩
      rw [entryOf?, hrecord]
      exact hentry
  | element _ _ _ he _ _ _ => exact Or.inr ⟨_, _, _, rfl, he, rfl⟩

end Emitted.Index

/-- What a node says by its source. Trees give no slots. In emitted layouts a variable or member
has those of its own entry, and an element has nothing of the kind. -/
def HasSourceFacts (source : Source) (fullName : String) (o : Origin) (f : Facts) : Prop :=
  match source, o with
  | .ast _, _ => f.slot = .null ∧ f.offset = .null
  | .layout _, .element _ =>
    f.slot = .null ∧ f.offset = .null ∧ f.id = .null ∧ f.visibility = .null
  | .layout index, o =>
    ∃ entry slot, index.entryOf? fullName o = some entry ∧ entry.get? "slot" = some slot ∧
      IsWholePartOf slot f.slot ∧
      IsWholePartOf ((entry.get? "offset").getD (.int 0)) f.offset ∧ f.visibility = .null

/-- What a node says is what its source says there. -/
theorem hasSourceFacts_of_occurs (source : Source) (fullName : String)
    (forest : List TypeReference) (n : Nat) (o : Origin) (d : Declaration) (x : TypeReference)
    (h : Occurs source fullName forest n o d x) : HasSourceFacts source fullName o d.nodeFacts := by
  cases source with
  | ast index =>
      have hread : ∀ ds : List Declaration, ∀ i : Nat,
          (∀ d ∈ ds, ∃ node, index.declaration node = .ok d) → (stored ds)[i]? = some d →
          d.slot = .null ∧ d.offset = .null := by
        intro ds i hds hd
        rcases hds d (List.mem_of_mem_filter (List.mem_of_getElem? hd)) with ⟨node, hnode⟩
        rcases index.declaration_eq_ok node d hnode with ⟨description, s, _, heq⟩
        rw [heq, Declaration.withShape_slot, Declaration.withShape_offset]
        exact ⟨rfl, rfl⟩
      -- Whichever way the declaration came about, trees give it neither slot nor offset.
      rw [HasSourceFacts, Declaration.nodeFacts_slot, Declaration.nodeFacts_offset]
      cases h with
      | storage hds hd _ => exact hread _ _ (index.storage_eq_ok fullName _ hds) hd
      | member _ _ hds hd _ _ =>
          rcases (bind_eq_ok _ _ _).mp hds with ⟨node, _, hds⟩
          exact hread _ _ (index.declarations_eq_ok _ _ hds) hd
      | element _ _ _ he _ _ _ =>
          exact ⟨(index.element_eq_ok _ _ he).1, (index.element_eq_ok _ _ he).2.1⟩
  | layout index =>
      rcases index.entry_of_occurs fullName forest n o d x h with
        ⟨entry, hentry, hread⟩ | ⟨key, label, e, ho, he, hd⟩
      · have hfacts : ∃ slot, entry.get? "slot" = some slot ∧ IsWholePartOf slot d.nodeFacts.slot ∧
            IsWholePartOf ((entry.get? "offset").getD (.int 0)) d.nodeFacts.offset ∧
            d.nodeFacts.visibility = .null := by
          rw [Declaration.nodeFacts_slot, Declaration.nodeFacts_offset,
            Declaration.nodeFacts_visibility]
          cases index.entryRead entry d hread with
          | read _ _ hslotValue hslot hoffset _ _ =>
              rw [Declaration.withShape_slot, Declaration.withShape_offset,
                Declaration.withShape_visibility]
              exact ⟨_, hslotValue, isWholePartOf_of_wholeNumber _ _ hslot,
                isWholePartOf_of_wholeNumber _ _ hoffset, rfl⟩
        rcases hfacts with ⟨slot, hslot, hfacts⟩
        -- An element has no entry, so the origin is a place among variables or members.
        cases o with
        | storage i => exact ⟨entry, slot, hentry, hslot, hfacts⟩
        | member m i => exact ⟨entry, slot, hentry, hslot, hfacts⟩
        | element key =>
            exact absurd hentry (by simp only [Emitted.Index.entryOf?, reduceCtorEq,
              not_false_eq_true])
      · rw [ho, hd, HasSourceFacts, Declaration.nodeFacts_slot, Declaration.nodeFacts_offset,
          Declaration.nodeFacts_id, Declaration.nodeFacts_visibility]
        cases index.elementRead key e he with
        | read _ _ =>
            simp only [Declaration.withShape_slot, Declaration.withShape_offset,
              Declaration.withShape_id, Declaration.withShape_visibility, and_self]

/-- The form of layout trees, at every node and every depth.

No node is deeper than the limit. Length and type of keys are never both set, and either shows that
there is a list of children. The node is that of one declaration, its children are those that the
shape of the declaration asks for, and what it says by its source is what stands there. -/
theorem layoutOf_treeForm (source : Source) (fullName : String) (limit : DepthLimit)
    (forest : List TypeReference) (h : layoutOf source fullName limit = .ok forest) :
    ∀ n x, At forest n x →
      (n : Int) ≤ limit.deepest ∧
      (x.facts.length.isNull = true ∨ x.facts.keyType.isNull = true) ∧
      (x.facts.length.isNull = false ∨ x.facts.keyType.isNull = false →
        ∃ ys, x.subType = some ys) ∧
      ∃ o d, Occurs source fullName forest n o d x ∧ x.facts = d.nodeFacts ∧
        IsFormed source d x.facts.keyType x.subType ∧
        HasSourceFacts source fullName o x.facts := by
  intro n x hx
  rcases occurs_of_at h n x hx with ⟨o, d, hoccurs⟩
  rcases expand_of_occurs h n o d x hoccurs with ⟨b, hb, hexpand⟩
  have hfacts := (expand_eq_ok source _ d x hexpand).1
  have hformed := isFormed_of_expand source _ b d x hexpand
  have hsource := hasSourceFacts_of_occurs source fullName forest n o d x hoccurs
  refine ⟨?_, ?_, fun hset => ?_, o, d, hoccurs, hfacts, hformed, hfacts ▸ hsource⟩
  · -- What is left of the budget is not negative.
    simp only [DepthLimit.budget] at hb
    omega
  · rw [hfacts]
    exact d.length_or_keyType_null
  · rw [hfacts] at hset
    rcases d.element_of_length_or_keyType hset with ⟨key, hkey⟩
    generalize x.subType = t at hformed
    cases hformed with
    | elementary hshape =>
        rw [hshape] at hkey
        exact absurd hkey (by simp only [Shape.element?, reduceCtorEq, not_false_eq_true])
    | members _ _ _ => exact ⟨_, rfl⟩
    | ofElementary _ _ _ => exact ⟨_, rfl⟩
    | ofComposite _ _ _ _ => exact ⟨_, rfl⟩

/-- An emitted layout with a mapping of lists, at the third slot. -/
def tallyLayout : Emitted.Index where
  contracts := [("a.sol:Tally", .obj [("storageLayout", .obj [("storage", .arr [
    .obj [("label", .str "votes"), ("type", .str "t_mapping"), ("slot", .str "3")]])])])]
  types := [
    (.text "t_bool", ⟨.str "t_bool", .obj [("encoding", .str "inplace")]⟩),
    (.text "t_array", ⟨.str "t_array",
      .obj [("encoding", .str "dynamic_array"), ("base", .str "t_bool")]⟩),
    (.text "t_mapping", ⟨.str "t_mapping",
      .obj [("encoding", .str "mapping"), ("key", .str "t_address"), ("value", .str "t_array")]⟩)]

/-- The mapping has one node below it, which is labelled by the type of the keys, stands at no slot,
and has nothing below it. -/
theorem layoutOf_treeForm_tally :
    ∃ x y, layoutOf (.layout tallyLayout) "a.sol:Tally" (.ofNat 1) = .ok [x] ∧
      x.facts.slot = .int 3 ∧ x.subType = some [y] ∧ y.facts.name = .str "[t_address]" ∧
      y.facts.slot = .null ∧
      ∃ o d, Occurs (.layout tallyLayout) "a.sol:Tally" [x] 1 o d y ∧
        IsFormed (.layout tallyLayout) d y.facts.keyType y.subType ∧
        HasSourceFacts (.layout tallyLayout) "a.sol:Tally" o y.facts := by
  have hforest : ∃ x y, layoutOf (.layout tallyLayout) "a.sol:Tally" (.ofNat 1) = .ok [x] ∧
      x.facts.slot = .int 3 ∧ x.subType = some [y] ∧ y.facts.name = .str "[t_address]" ∧
      y.facts.slot = .null := ⟨_, _, rfl, rfl, rfl, rfl, rfl⟩
  rcases hforest with ⟨x, y, h, hslot, hbelow, hname, hnone⟩
  rcases layoutOf_treeForm (.layout tallyLayout) "a.sol:Tally" (.ofNat 1) [x] h 1 y
    (.child (.root List.mem_cons_self) hbelow List.mem_cons_self) with
    ⟨_, _, _, o, d, hoccurs, _, hformed, hsource⟩
  exact ⟨x, y, h, hslot, hbelow, hname, hnone, o, d, hoccurs, hformed, hsource⟩

/-- An entry whose slot has a fraction. -/
def fractionEntry : Json :=
  .obj [("astId", .int 2), ("label", .str "count"), ("offset", .int 0),
    ("slot", .real (.finite (3 / 2))), ("type", .str "t_uint256")]

/-- Compiler output with an entry whose slot has a fraction. -/
def fractionOutput : Json :=
  .obj [("contracts", .obj [("a.sol", .obj [("A", .obj [("storageLayout", .obj
    [("storage", .arr [fractionEntry]),
      ("types", .obj [("t_uint256", .obj [("encoding", .str "inplace"),
        ("label", .str "uint256"), ("numberOfBytes", .str "32")])])])])])])]

/-- A slot with a fraction is not refused: the node stands at another slot than its entry. -/
theorem layoutOf_fraction : ∃ x slot,
    resolveLayout fractionOutput "a.sol:A" .layout (.ofNat 64) = .ok [x] ∧
      x.facts.id = .int 2 ∧ x.facts.slot = .int 1 ∧ fractionEntry.get? "slot" = some slot ∧
      slot.number? = some (3 / 2) ∧ (3 / 2 : Rat) ≠ 1 := by
  have htruncated : Binary64.truncate (3 / 2) = 1 := by decide +kernel
  exact ⟨_, _, rfl, rfl, congrArg Json.int htruncated, rfl, rfl, by decide +kernel⟩

end StorageLayout
